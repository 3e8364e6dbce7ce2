import Ares.Coop.Ending
import Ares.Stores.Records

/-! What a store gives back.  A get never comes back with a part of a record or a mix of two, and a put
that has returned is not taken back: not by overlapping puts, not by failing calls and not by a
process that is killed; and not by a loss of power where the store writes the directory to the
medium. -/

namespace Ares.Stores

open Coop Data

variable {ρ : Type}

/-- The file of the task `j` got its name no later than that of the task `i`. -/
def NotAfter (j i : Nat) (h : List (Event ρ)) : Prop :=
  j = i ∨ ∃ r past, (.replaced i r :: past) <:+ h ∧ ∃ r', .replaced j r' ∈ past

def Causal : Event ρ → List (Event ρ) → Prop
  | .received t _, past => own t past = []
  | .replaced t r, past => (∀ r', .replaced t r' ∉ past) ∧ .received t (.put r) ∈ past
  | .returned t r _, past => .replaced t r ∈ past
  | .failed _, _ => True

/-- The files that have names hold whole records, on the medium. -/
structure Inv (store : Store) (fmt : Format ρ) (s : State ρ) : Prop where
  causal : Always Causal s.history
  linked : ∀ (n : Path) (k i : Nat), (s.medium.entries n)[k]? = some (some i) →
    ∃ r, .replaced i r ∈ s.history ∧ fmt.path r = n
  whole : ∀ i r, .replaced i r ∈ s.history → s.medium.content i = fmt.encode r ∧
    s.medium.synced i = true ∧ store.fits (fmt.encode r) = true
  order : ∀ (n : Path) (a b i i' : Nat), a ≤ b → (s.medium.entries n)[a]? = some (some i) →
    (s.medium.entries n)[b]? = some (some i') → NotAfter i i' s.history
  standing : ∀ j r f, .returned j r f ∈ s.history →
    store.syncsDirectory = true ∨ s.failures = f →
    ∃ k, (s.medium.entries (fmt.path r))[k]? = some (some j) ∧
      (store.syncsDirectory = true → k ≤ s.medium.safe (fmt.path r))
  counted : ∀ j r f, .returned j r f ∈ s.history → f ≤ s.failures
  files : ∀ (n : Path) (k : Nat), (s.medium.entries n)[k]? = some none → k = 0

/-- The other tasks add to the history and, while the process lives, to the names. -/
structure Rely (j : Nat) (s s' : State ρ) : Prop where
  kept : Kept State.history j s s'
  life : s.life ≤ s'.life
  same : s'.life = s.life → s'.failures = s.failures ∧ s.medium.Grows s'.medium ∧
    s'.medium.content j = s.medium.content j ∧ s'.medium.synced j = s.medium.synced j

structure Guar (j : Nat) (s s' : State ρ) : Prop where
  kept : ∀ k ≠ j, Kept State.history k s s'
  suffix : s.history <:+ s'.history
  life : s'.life = s.life
  failures : s'.failures = s.failures
  grows : s.medium.Grows s'.medium
  content : ∀ i ≠ j, s'.medium.content i = s.medium.content i ∧
    s'.medium.synced i = s.medium.synced i

section Relations

variable {store : Store} {fmt : Format ρ} {j k i : Nat} {s s' s'' : State ρ} {h h' : List (Event ρ)}

theorem NotAfter.suffix (hn : NotAfter j i h) (hs : h <:+ h') : NotAfter j i h' := by
  rcases hn with rfl | ⟨r, past, hp, hj⟩
  · exact .inl rfl
  · exact .inr ⟨r, past, hp.trans hs, hj⟩

theorem Rely.refl (j : Nat) (s : State ρ) : Rely j s s :=
  ⟨Kept.refl j s, Nat.le_refl _, fun _ => ⟨rfl, .refl _, rfl, rfl⟩⟩

theorem Rely.trans (h : Rely j s s') (h' : Rely j s' s'') : Rely j s s'' := by
  refine ⟨h.kept.trans h'.kept, h.life.trans h'.life, fun hlife => ?_⟩
  have hle := h.life
  have hle' := h'.life
  obtain ⟨hf, hg, hc, hs⟩ := h.same (by omega)
  obtain ⟨hf', hg', hc', hs'⟩ := h'.same (by omega)
  exact ⟨hf'.trans hf, hg.trans hg', hc'.trans hc, hs'.trans hs⟩

theorem Guar.rely (hne : j ≠ k) (h : Guar j s s') : Rely k s s' :=
  ⟨h.kept k hne.symm, h.life.ge, fun _ =>
    ⟨h.failures, h.grows, (h.content k hne.symm).1, (h.content k hne.symm).2⟩⟩

theorem guar_note {e : Event ρ} (he : e.task = j) : Guar j s (s.note e) :=
  ⟨fun _ hne => Noted.kept hne.symm ⟨e, he, rfl⟩, List.suffix_cons _ _, rfl, rfl, .refl _,
    fun _ _ => ⟨rfl, rfl⟩⟩

end Relations

/-! ### The invariant -/

section Steps

variable {store : Store} {fmt : Format ρ} {j : Nat} {r : ρ} {s : State ρ} {e : Event ρ}

def Event.Neutral : Event ρ → Prop
  | .received _ _ | .failed _ => True
  | _ => False

theorem Inv.note (h : Inv store fmt s) (he : Causal e s.history) (hn : e.Neutral) :
    Inv store fmt (s.note e) where
  causal := ⟨he, h.causal⟩
  linked n k i hk := by
    obtain ⟨r, hr, hp⟩ := h.linked n k i hk
    exact ⟨r, List.mem_cons_of_mem _ hr, hp⟩
  whole i r hr := by
    rcases List.mem_cons.mp hr with rfl | hr
    · exact hn.elim
    · exact h.whole i r hr
  order n a b i i' hab ha hb := (h.order n a b i i' hab ha hb).suffix (List.suffix_cons _ _)
  standing t r f hr := by
    rcases List.mem_cons.mp hr with rfl | hr
    · exact hn.elim
    · exact h.standing t r f hr
  counted t r f hr := by
    rcases List.mem_cons.mp hr with rfl | hr
    · exact hn.elim
    · exact h.counted t r f hr
  files := h.files

theorem Inv.content {m : Medium Path UInt8} (h : Inv store fmt s)
    (hfresh : ∀ r, .replaced j r ∉ s.history) (hentries : m.entries = s.medium.entries)
    (hsafe : m.safe = s.medium.safe)
    (hcontent : ∀ i ≠ j, m.content i = s.medium.content i ∧ m.synced i = s.medium.synced i) :
    Inv store fmt { s with medium := m } where
  causal := h.causal
  linked n k i hk := h.linked n k i (hentries ▸ hk)
  whole i r hr := by
    obtain ⟨hc, hs, hfits⟩ := h.whole i r hr
    obtain ⟨hc', hs'⟩ := hcontent i fun hi => hfresh r (hi ▸ hr)
    exact ⟨hc'.trans hc, hs'.trans hs, hfits⟩
  order n a b i i' hab ha hb := h.order n a b i i' hab (hentries ▸ ha) (hentries ▸ hb)
  standing t r f hr hf := by
    obtain ⟨k, hk, hle⟩ := h.standing t r f hr hf
    refine ⟨k, ?_, ?_⟩
    · show (m.entries _)[k]? = _
      rw [hentries, hk]
    · show store.syncsDirectory = true → k ≤ m.safe _
      rw [hsafe]
      exact hle
  counted := h.counted
  files n k hk := h.files n k (hentries ▸ hk)

theorem Inv.replace (h : Inv store fmt s) (hreceived : .received j (.put r) ∈ s.history)
    (hfresh : ∀ r', .replaced j r' ∉ s.history) (hcontent : s.medium.content j = fmt.encode r)
    (hsynced : s.medium.synced j = true) (hfits : store.fits (fmt.encode r) = true) :
    Inv store fmt (s.replace fmt j r) where
  causal := ⟨⟨hfresh, hreceived⟩, h.causal⟩
  linked n k i hk := by
    rcases Medium.getElem?_link hk with hk | ⟨rfl, -, hi⟩
    · obtain ⟨r', hr, hp⟩ := h.linked n k i hk
      exact ⟨r', List.mem_cons_of_mem _ hr, hp⟩
    · obtain rfl := Option.some.inj hi
      exact ⟨r, List.mem_cons_self, rfl⟩
  whole i r' hr := by
    rcases List.mem_cons.mp hr with heq | hr
    · obtain ⟨rfl, rfl⟩ := Event.replaced.inj heq
      exact ⟨hcontent, hsynced, hfits⟩
    · exact h.whole i r' hr
  order n a b i i' hab ha hb := by
    rcases Medium.getElem?_link hb with hb | ⟨rfl, hlen, hi⟩
    · have hlt := (List.getElem?_eq_some_iff.mp hb).1
      rcases Medium.getElem?_link ha with ha | ⟨rfl, hlen, -⟩
      · exact (h.order n a b i i' hab ha hb).suffix (List.suffix_cons _ _)
      · omega
    · obtain rfl := Option.some.inj hi
      rcases Medium.getElem?_link ha with ha | ⟨-, -, hi⟩
      · obtain ⟨r', hr, -⟩ := h.linked _ a i ha
        exact .inr ⟨r, s.history, List.suffix_refl _, r', hr⟩
      · exact .inl (Option.some.inj hi)
  standing t r' f hr hf := by
    rcases List.mem_cons.mp hr with heq | hr
    · cases heq
    · obtain ⟨k, hk, hle⟩ := h.standing t r' f hr hf
      exact ⟨k, Medium.grows_link.getElem? hk, hle⟩
  counted t r' f hr := by
    rcases List.mem_cons.mp hr with heq | hr
    · cases heq
    · exact h.counted t r' f hr
  files n k hk := by
    rcases Medium.getElem?_link hk with hk | ⟨-, -, hi⟩
    · exact h.files n k hk
    · cases hi

theorem Inv.syncDirectory {directory : String} {upto : Path → Nat} (h : Inv store fmt s) :
    Inv store fmt (s.syncDirectory directory upto) where
  causal := h.causal
  linked := h.linked
  whole := h.whole
  order := h.order
  standing t r f hr hf := by
    obtain ⟨k, hk, hle⟩ := h.standing t r f hr hf
    exact ⟨k, hk, fun hs => (hle hs).trans (Medium.grows_syncDirectory.safe _)⟩
  counted := h.counted
  files := h.files

theorem Inv.returned {k : Nat} (h : Inv store fmt s) (hr : .replaced j r ∈ s.history)
    (hk : (s.medium.entries (fmt.path r))[k]? = some (some j))
    (hsafe : store.syncsDirectory = true → k ≤ s.medium.safe (fmt.path r)) :
    Inv store fmt (s.note (.returned j r s.failures)) where
  causal := ⟨hr, h.causal⟩
  linked n k i hk := by
    obtain ⟨r, hr, hp⟩ := h.linked n k i hk
    exact ⟨r, List.mem_cons_of_mem _ hr, hp⟩
  whole i r hr := by
    rcases List.mem_cons.mp hr with heq | hr
    · cases heq
    · exact h.whole i r hr
  order n a b i i' hab ha hb := (h.order n a b i i' hab ha hb).suffix (List.suffix_cons _ _)
  standing t r' f hr' hf := by
    rcases List.mem_cons.mp hr' with heq | hr'
    · obtain ⟨rfl, rfl, -⟩ := Event.returned.inj heq
      exact ⟨k, hk, hsafe⟩
    · exact h.standing t r' f hr' hf
  counted t r' f hr' := by
    rcases List.mem_cons.mp hr' with heq | hr'
    · obtain ⟨-, -, rfl⟩ := Event.returned.inj heq
      exact Nat.le_refl _
    · exact h.counted t r' f hr'
  files := h.files

theorem Inv.losePower {back : Path → Nat} {lost : Nat → List UInt8} (h : Inv store fmt s) :
    Inv store fmt ((system store fmt).world (.power back lost) s) where
  causal := h.causal
  linked n k i hk := h.linked n k i (Medium.getElem?_of_losePower hk)
  whole i r hr := by
    obtain ⟨hc, hs, hfits⟩ := h.whole i r hr
    refine ⟨?_, rfl, hfits⟩
    show (if s.medium.synced i then s.medium.content i else lost i) = _
    rw [if_pos hs, hc]
  order n a b i i' hab ha hb := h.order n a b i i' hab (Medium.getElem?_of_losePower ha)
    (Medium.getElem?_of_losePower hb)
  standing t r f hr hf := by
    have hle := h.counted t r f hr
    rcases hf with hf | hf
    · obtain ⟨k, hk, hsafe⟩ := h.standing t r f hr (.inl hf)
      exact ⟨k, Medium.getElem?_losePower hk (hsafe hf),
        fun _ => (hsafe hf).trans (Nat.le_max_left _ _)⟩
    · have hf' : s.failures + 1 = f := hf
      omega
  counted t r f hr := Nat.le_succ_of_le (h.counted t r f hr)
  files n k hk := h.files n k (Medium.getElem?_of_losePower hk)

theorem Inv.current (h : Inv store fmt s) {j : Nat} {f : Nat}
    (hr : .returned j r f ∈ s.history) (hf : store.syncsDirectory = true ∨ s.failures = f) :
    ∃ i, s.medium.current (fmt.path r) = some i ∧ NotAfter j i s.history := by
  obtain ⟨k, hk, -⟩ := h.standing j r f hr hf
  have hle := Medium.le_newest hk
  have hlt : s.medium.newest (fmt.path r) < (s.medium.entries (fmt.path r)).length := by
    have := s.medium.safe_lt (fmt.path r)
    rw [Medium.newest]
    omega
  obtain ⟨file, hfile⟩ : ∃ file, (s.medium.entries (fmt.path r))[s.medium.newest (fmt.path r)]? =
      some file := ⟨_, List.getElem?_eq_getElem hlt⟩
  cases file with
  | some i => exact ⟨i, Medium.current_eq.mpr hfile, h.order _ _ _ _ _ hle hk hfile⟩
  | none =>
    have hzero := h.files _ _ hfile
    obtain rfl : k = 0 := by omega
    rw [← hzero, hfile] at hk
    cases hk

theorem Inv.record (h : Inv store fmt s) {n : Path} {i : Nat}
    (hi : s.medium.current n = some i) : ∃ r, .replaced i r ∈ s.history ∧ fmt.path r = n :=
  h.linked n _ i (Medium.current_eq.mp hi)

end Steps

/-! ### Calls -/

abbrev logic (store : Store) (fmt : Format ρ) (j : Nat) : Logic (State ρ) Res :=
  ⟨Inv store fmt, Rely j, Guar j, (system store fmt).answers⟩

/-- An assertion that stays true while the process lives. -/
structure Steady (j : Nat) (P : State ρ → Prop) : Prop where
  rely : ∀ {s s'}, P s → Rely j s s' → s'.life = s.life → P s'
  failed : ∀ {s}, P s → P (s.note (.failed j))

section Calls

variable {store : Store} {fmt : Format ρ} {b j : Nat} {r : ρ} {s : State ρ} {P : State ρ → Prop}

theorem spec_attempt {c : Call} {Q : c.Answer → State ρ → Prop} {E : Error → State ρ → Prop}
    (hP : Steady j P) (h : P s) (hlife : s.life = b)
    (hQ : ∀ a s', Inv store fmt s' → P s' → Rely j s s' → s'.life = b → Answered s' c a → Q a s')
    (hE : ∀ e s', Inv store fmt s' → P s' → s'.life = b → .failed j ∈ s'.history → e ≠ .value →
      E e s') : (attempt b j c).Spec (logic store fmt j) Q E s := by
  simp only [attempt, bind_eq, spec_bind, spec_perform]
  rintro s' inv rely a ⟨hb, ha⟩
  have hsame : s'.life = s.life := hb.symm.trans hlife.symm
  cases a with
  | ok a => exact hQ a s' inv (hP.rely h rely hsame) rely hb.symm ha
  | error e =>
    have inv' : Inv store fmt (s'.note (.failed j)) := inv.note trivial trivial
    exact ⟨guar_note rfl, inv', hE e _ inv' (hP.failed (hP.rely h rely hsame)) hb.symm
      List.mem_cons_self ha⟩

theorem spec_cleanup (c : Call) :
    (attempt b j c).Spec (logic store fmt j) (fun _ _ => True) (fun _ _ => True) s := by
  simp only [attempt, bind_eq, spec_bind, spec_perform]
  intro s' inv _ a _
  cases a with
  | ok a => trivial
  | error e => exact ⟨guar_note rfl, inv.note trivial trivial, trivial⟩

theorem spec_unlink {Q : Unit → State ρ → Prop} {E : Error → State ρ → Prop} (hP : Steady j P)
    (h : P s) (hlife : s.life = b) (hQ : ∀ s', Inv store fmt s' → P s' → s'.life = b → Q () s')
    (hE : ∀ e s', E e s') : (unlink b j).Spec (logic store fmt j) Q E s := by
  rw [unlink, spec_handle]
  refine spec_attempt hP h hlife (fun _ s' inv h' _ hlife' _ => hQ s' inv h' hlife')
    fun e s' inv h' hlife' _ _ => ?_
  cases e with
  | notFound => exact hQ s' inv h' hlife'
  | os | value => exact hE _ s'

theorem spec_unlink_cleanup :
    (unlink b j).Spec (logic store fmt j) (fun _ _ => True) (fun _ _ => True) s := by
  rw [unlink, spec_handle]
  refine (spec_cleanup _).mono (fun _ _ h => h) fun e _ _ => ?_
  cases e <;> trivial

end Calls

/-! ### A put -/

def Unnamed (j : Nat) (r : ρ) (s : State ρ) : Prop :=
  .received j (.put r) ∈ s.history ∧ ∀ r', .replaced j r' ∉ s.history

def Filled (fmt : Format ρ) (j : Nat) (r : ρ) (s : State ρ) : Prop :=
  Unnamed j r s ∧ s.medium.content j = fmt.encode r ∧ s.medium.synced j = true

def Named (fmt : Format ρ) (j : Nat) (r : ρ) (k : Nat) (s : State ρ) : Prop :=
  .replaced j r ∈ s.history ∧ (s.medium.entries (fmt.path r))[k]? = some (some j)

def Safe (fmt : Format ρ) (j : Nat) (r : ρ) (k : Nat) (s : State ρ) : Prop :=
  Named fmt j r k s ∧ k ≤ s.medium.safe (fmt.path r)

section Puts

variable {store : Store} {fmt : Format ρ} {b j k : Nat} {r : ρ} {s : State ρ}

theorem not_replaced_of_kept {s' : State ρ} (h : ∀ r', .replaced j r' ∉ s.history)
    (hk : Kept State.history j s s') (r' : ρ) : .replaced j r' ∉ s'.history := by
  intro hmem
  have hown : Event.replaced j r' ∈ own j s'.history := mem_own hmem
  rw [hk.2] at hown
  exact h r' (mem_of_mem_own hown)

theorem steady_unnamed : Steady j (Unnamed (ρ := ρ) j r) where
  rely h rely _ := ⟨rely.kept.1.subset h.1, not_replaced_of_kept h.2 rely.kept⟩
  failed h := by
    refine ⟨List.mem_cons_of_mem _ h.1, fun r' hmem => ?_⟩
    rcases List.mem_cons.mp hmem with heq | hmem
    · cases heq
    · exact h.2 r' hmem

theorem steady_filled : Steady j (Filled fmt j r) where
  rely h rely hlife := by
    obtain ⟨-, -, hc, hs⟩ := rely.same hlife
    exact ⟨steady_unnamed.rely h.1 rely hlife, hc.trans h.2.1, hs.trans h.2.2⟩
  failed h := ⟨steady_unnamed.failed h.1, h.2⟩

theorem steady_named : Steady j (Named fmt j r k) where
  rely h rely hlife := ⟨rely.kept.1.subset h.1, (rely.same hlife).2.1.getElem? h.2⟩
  failed h := ⟨List.mem_cons_of_mem _ h.1, h.2⟩

theorem steady_safe : Steady j (Safe fmt j r k) where
  rely h rely hlife :=
    ⟨steady_named.rely h.1 rely hlife, h.2.trans ((rely.same hlife).2.1.safe _)⟩
  failed h := ⟨steady_named.failed h.1, h.2⟩

theorem guar_content {m : Medium Path UInt8} (hentries : m.entries = s.medium.entries)
    (hsafe : m.safe = s.medium.safe)
    (hcontent : ∀ i ≠ j, m.content i = s.medium.content i ∧ m.synced i = s.medium.synced i) :
    Guar j s { s with medium := m } :=
  ⟨fun k _ => Kept.refl k _, List.suffix_refl _, rfl, rfl,
    ⟨fun n => by rw [hentries], fun n => by rw [hsafe]⟩, hcontent⟩

theorem spec_fill (hlife : s.life = b) (h : Unnamed j r s) :
    (fill b j (fmt.encode r)).Spec (logic store fmt j)
      (fun _ s' => Inv store fmt s' ∧ Filled fmt j r s' ∧ s'.life = b) (fun _ _ => True) s := by
  simp only [fill, bind_eq, spec_andFinally, spec_bind]
  refine spec_attempt steady_unnamed h hlife (fun n s₁ inv₁ h₁ _ hlife₁ _ => ?_)
    fun _ _ _ _ _ _ _ => spec_cleanup _
  simp only [spec_modify, spec_require]
  have others : ∀ i ≠ j, (s₁.medium.write j ((fmt.encode r).take n)).content i =
      s₁.medium.content i ∧ (s₁.medium.write j ((fmt.encode r).take n)).synced i =
      s₁.medium.synced i := fun i hne =>
    ⟨Function.update_of_ne hne _ _, Function.update_of_ne hne _ _⟩
  have inv₂ : Inv store fmt (s₁.write j ((fmt.encode r).take n)) :=
    inv₁.content h₁.2 rfl rfl others
  refine ⟨guar_content rfl rfl others, inv₂, fun hall => ?_, fun _ => spec_cleanup _⟩
  -- The file has all bytes, and keeps them until it is on the medium.
  let P : State ρ → Prop := fun s' => Unnamed j r s' ∧ s'.medium.content j = fmt.encode r
  have hP : Steady j P :=
    ⟨fun h rely hlife => ⟨steady_unnamed.rely h.1 rely hlife,
      (rely.same hlife).2.2.1.trans h.2⟩, fun h => ⟨steady_unnamed.failed h.1, h.2⟩⟩
  have h₂ : P (s₁.write j ((fmt.encode r).take n)) := by
    refine ⟨h₁, ?_⟩
    show Function.update s₁.medium.content j _ j = _
    rw [Function.update_self, List.take_of_length_le (of_decide_eq_true hall)]
  refine spec_attempt hP h₂ hlife₁ (fun _ s₃ inv₃ h₃ _ hlife₃ _ => ?_)
    fun _ _ _ _ _ _ _ => spec_cleanup _
  have others' : ∀ i ≠ j, (s₃.medium.syncFile j).content i = s₃.medium.content i ∧
      (s₃.medium.syncFile j).synced i = s₃.medium.synced i := fun i hne =>
    ⟨rfl, Function.update_of_ne hne _ _⟩
  refine ⟨guar_content rfl rfl others', inv₃.content h₃.1.2 rfl rfl others', ?_⟩
  have h₄ : Filled fmt j r (s₃.syncFile j) := ⟨h₃.1, h₃.2, Function.update_self _ _ _⟩
  exact spec_attempt steady_filled h₄ hlife₃ (fun _ s' inv' h' _ hlife' _ => ⟨inv', h', hlife'⟩)
    fun _ _ _ _ _ _ _ => trivial

theorem spec_syncDirectory (hlife : s.life = b) (h : Named fmt j r k s) :
    (syncDirectory b j (fmt.path r).parent).Spec (logic store fmt j)
      (fun _ s' => Inv store fmt s' ∧ Safe fmt j r k s' ∧ s'.life = b) (fun _ _ => True) s := by
  simp only [syncDirectory, bind_eq, spec_bind, spec_andFinally]
  refine spec_attempt steady_named h hlife (fun _ s₁ inv₁ h₁ _ hlife₁ _ => ?_)
    fun _ _ _ _ _ _ _ => trivial
  simp only [spec_reading]
  refine spec_attempt steady_named h₁ hlife₁ (fun _ s₂ inv₂ h₂ rely hlife₂ _ => ?_)
    fun _ _ _ _ _ _ _ => spec_cleanup _
  have grows : s₁.medium.Grows s₂.medium := (rely.same (hlife₂.trans hlife₁.symm)).2.1
  rw [spec_modify]
  refine ⟨⟨fun k _ => Kept.refl k _, List.suffix_refl _, rfl, rfl, Medium.grows_syncDirectory,
    fun _ _ => ⟨rfl, rfl⟩⟩, inv₂.syncDirectory, ?_⟩
  have h₃ : Safe fmt j r k (s₂.syncDirectory (fmt.path r).parent s₁.medium.newest) :=
    ⟨h₂, Medium.le_safe_syncDirectory grows (decide_eq_true rfl) (Medium.le_newest h₁.2)⟩
  exact spec_attempt steady_safe h₃ hlife₂ (fun _ s' inv' h' _ hlife' _ => ⟨inv', h', hlife'⟩)
    fun _ _ _ _ _ _ _ => trivial

theorem spec_write (hlife : s.life = b) (h : Unnamed j r s) :
    (write store fmt b j r).Spec (logic store fmt j)
      (fun _ s' => Inv store fmt s' ∧ s'.life = b ∧ ∃ k, Named fmt j r k s' ∧
        (store.syncsDirectory = true → k ≤ s'.medium.safe (fmt.path r))) (fun _ _ => True) s := by
  simp only [write, bind_eq, spec_bind, spec_require, spec_andFinally]
  refine ⟨fun hfits => ?_, fun _ => trivial⟩
  refine spec_attempt steady_unnamed h hlife (fun _ s₁ _ h₁ _ hlife₁ _ => ?_)
    fun _ _ _ _ _ _ _ => trivial
  refine (spec_fill hlife₁ h₁).mono (fun _ s₂ h₂ => ?_) fun _ _ _ => spec_unlink_cleanup
  obtain ⟨inv₂, h₂, hlife₂⟩ := h₂
  have mode : (setMode store b j).Spec (logic store fmt j)
      (fun _ s' => Inv store fmt s' ∧ Filled fmt j r s' ∧ s'.life = b) (fun _ _ => True) s₂ := by
    rw [setMode]
    split
    · exact spec_attempt steady_filled h₂ hlife₂ (fun _ s' inv' h' _ hlife' _ => ⟨inv', h', hlife'⟩)
        fun _ _ _ _ _ _ _ => trivial
    · exact ⟨inv₂, h₂, hlife₂⟩
  refine mode.mono (fun _ s₃ h₃ => ?_) fun _ _ _ => spec_unlink_cleanup
  obtain ⟨inv₃, h₃, hlife₃⟩ := h₃
  refine spec_attempt steady_filled h₃ hlife₃ (fun _ s₄ inv₄ h₄ _ hlife₄ _ => ?_)
    fun _ _ _ _ _ _ _ => spec_unlink_cleanup
  rw [spec_modify]
  have inv₅ : Inv store fmt (s₄.replace fmt j r) :=
    inv₄.replace h₄.1.1 h₄.1.2 h₄.2.1 h₄.2.2 hfits
  have named : Named fmt j r (s₄.medium.newest (fmt.path r) + 1) (s₄.replace fmt j r) :=
    ⟨List.mem_cons_self, Medium.getElem?_link_self⟩
  refine ⟨⟨fun _ hne => Noted.kept (Ne.symm hne) ⟨.replaced j r, rfl, rfl⟩, List.suffix_cons _ _,
    rfl, rfl, Medium.grows_link, fun _ _ => ⟨rfl, rfl⟩⟩, inv₅, ?_⟩
  cases hsync : store.syncsDirectory with
  | true =>
    refine (spec_syncDirectory (s := s₄.replace fmt j r) hlife₄ named).mono (fun _ s₆ h₆ => ?_)
      fun _ _ _ => spec_unlink_cleanup
    obtain ⟨inv₆, h₆, hlife₆⟩ := h₆
    exact spec_unlink steady_safe h₆ hlife₆
      (fun s' inv' h' hlife' => ⟨inv', hlife', _, h'.1, fun _ => h'.2⟩) fun _ _ => trivial
  | false =>
    exact spec_unlink (s := s₄.replace fmt j r) steady_named named hlife₄
      (fun s' inv' h' hlife' => ⟨inv', hlife', _, h', by simp⟩) fun _ _ => trivial

end Puts

end Ares.Stores
