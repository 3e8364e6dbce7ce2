import Ares.Stores.Durable

/-! What a get finds: a whole record that was put under its path, and none older than a put that had
returned before the get began. -/

namespace Ares.Stores

open Coop Data

variable {ρ : Type}

/-- The put `j` under the path had returned, and no failure since can have taken it back. -/
def Stands (store : Store) (fmt : Format ρ) (p : Path) (past : List (Event ρ)) (j : Nat)
    (s : State ρ) : Prop :=
  ∃ r f, .returned j r f ∈ past ∧ fmt.path r = p ∧ (store.syncsDirectory = true ∨ s.failures = f)

/-- What the get `g` has found, where `past` had happened before it began. -/
structure Found (store : Store) (fmt : Format ρ) (p : Path) (past : List (Event ρ)) (g : Nat)
    (result : Option ρ) (s : State ρ) : Prop where
  record : ∀ r, result = some r → ∃ i, .replaced i r ∈ s.history ∧ fmt.path r = p ∧
    ∀ j, Stands store fmt p past j s → NotAfter j i s.history
  missing : result = none → .failed g ∈ s.history ∨ ∀ j, ¬Stands store fmt p past j s

section Gets

variable {store : Store} {fmt : Format ρ} {b g i : Nat} {p : Path} {past : List (Event ρ)}
  {s s' : State ρ}

theorem steady_past : Steady g fun s : State ρ => past <:+ s.history :=
  ⟨fun h rely _ => h.trans rely.kept.1, fun h => h.trans (List.suffix_cons _ _)⟩

theorem current_of_stands (inv : Inv store fmt s) (hs : past <:+ s.history) {j : Nat}
    (h : Stands store fmt p past j s) :
    ∃ i, s.medium.current p = some i ∧ NotAfter j i s.history := by
  obtain ⟨r, f, hr, rfl, hf⟩ := h
  exact inv.current (hs.subset hr) hf

theorem Stands.of_failures {j : Nat} (h : Stands store fmt p past j s')
    (hf : s'.failures = s.failures) : Stands store fmt p past j s := by
  obtain ⟨r, f, hr, hp, hstand⟩ := h
  exact ⟨r, f, hr, hp, hf ▸ hstand⟩

theorem spec_readBytes {Q : List UInt8 → State ρ → Prop} {E : Error → State ρ → Prop}
    (roundTrip : ∀ r, fmt.decode (fmt.encode r) = some r) (hs : past <:+ s.history)
    (hlife : s.life = b)
    (hQ : ∀ data r s', fmt.decode data = some r → Found store fmt p past g (some r) s' → Q data s')
    (hE : ∀ e s', .failed g ∈ s'.history → e ≠ .value → E e s') :
    (readBytes b g p).Spec (logic store fmt g) Q E s := by
  rw [readBytes, spec_do]
  refine spec_attempt steady_past hs hlife (fun i s₁ inv₁ hs₁ _ hlife₁ hi => ?_)
    fun e s' _ _ _ hfailed he => hE e s' hfailed he
  refine spec_attempt steady_past hs₁ hlife₁ (fun data s₂ inv₂ _ rely hlife₂ hdata => ?_)
    fun e s' _ _ _ hfailed he => hE e s' hfailed he
  obtain ⟨r, hr, hp⟩ := inv₁.record hi
  have hr₂ := rely.kept.1.subset hr
  have hdecode : fmt.decode data = some r := by
    rw [show data = s₂.medium.content i from hdata, (inv₂.whole i r hr₂).1, roundTrip]
  refine hQ data r s₂ hdecode ⟨fun r' heq => ?_, by simp⟩
  obtain rfl := Option.some.inj heq
  refine ⟨i, hr₂, hp, fun j hj => ?_⟩
  -- The file was current while the put stood.
  obtain ⟨i', hi', hn⟩ := current_of_stands inv₁ hs₁
    (hj.of_failures (rely.same (hlife₂.trans hlife₁.symm)).1)
  obtain rfl : i' = i := Option.some.inj (hi'.symm.trans hi)
  exact hn.suffix rely.kept.1

theorem spec_isRecord {Q : Bool → State ρ → Prop} {E : Error → State ρ → Prop}
    (hs : past <:+ s.history) (hlife : s.life = b)
    (hQ : ∀ found s', past <:+ s'.history → s'.life = b →
      (found = false → ∀ j, ¬Stands store fmt p past j s') → Q found s')
    (hE : ∀ e s', .failed g ∈ s'.history → e ≠ .value → E e s') :
    (isRecord store b g p).Spec (logic store fmt g) Q E s := by
  have hfail : ∀ e s', Inv store fmt s' → past <:+ s'.history → s'.life = b →
      .failed g ∈ s'.history → e ≠ .value → E e s' := fun e s' _ _ _ => hE e s'
  simp only [isRecord, bind_eq, spec_bind]
  refine spec_attempt steady_past hs hlife (fun link s₁ _ hs₁ _ hlife₁ hlink => ?_) hfail
  obtain rfl : link = false := hlink
  rw [if_neg Bool.false_ne_true]
  refine spec_bind.mpr ?_
  refine spec_attempt steady_past hs₁ hlife₁ (fun file s₂ inv₂ hs₂ _ hlife₂ hfile => ?_) hfail
  cases file with
  | false =>
    refine hQ false s₂ hs₂ hlife₂ fun _ j hj => ?_
    obtain ⟨i, hi, -⟩ := current_of_stands inv₂ hs₂ hj
    have hnone : false = (s₂.medium.current p).isSome := hfile
    rw [hi] at hnone
    cases hnone
  | true =>
    rw [if_pos rfl]
    refine spec_bind.mpr ?_
    refine spec_attempt steady_past hs₂ hlife₂ (fun size s₃ inv₃ hs₃ _ hlife₃ hsize => ?_) hfail
    obtain ⟨i, hi, hlen⟩ := hsize
    obtain ⟨r, hr, -⟩ := inv₃.record hi
    obtain ⟨hcontent, -, hfits⟩ := inv₃.whole i r hr
    have hsmall : (store.maximum.all fun maximum => size ≤ maximum) = true := by
      rw [hlen, hcontent]
      exact hfits
    exact hQ _ s₃ hs₃ hlife₃ fun hbig => by simp [hsmall] at hbig

theorem spec_read (roundTrip : ∀ r, fmt.decode (fmt.encode r) = some r) (hs : past <:+ s.history)
    (hlife : s.life = b) :
    (read store fmt b g p).Spec (logic store fmt g)
      (fun result s' => Found store fmt p past g result s') (fun _ _ => False) s := by
  have failed : ∀ s' : State ρ, .failed g ∈ s'.history → Found store fmt p past g none s' :=
    fun s' h => ⟨by simp, fun _ => .inl h⟩
  rw [read]
  split
  · simp only [bind_eq, spec_handle, spec_bind]
    refine spec_isRecord hs hlife (fun found s₁ hs₁ hlife₁ hfound => ?_) fun e s' h _ => failed s' h
    cases found with
    | true =>
      refine spec_bind.mpr (spec_readBytes roundTrip hs₁ hlife₁ (fun data r s' hr h => ?_)
        fun e s' h _ => failed s' h)
      show Found store fmt p past g (fmt.decode data) s'
      rw [hr]
      exact h
    | false => exact ⟨by simp, fun _ => .inr (hfound rfl)⟩
  · simp only [bind_eq, pure_eq, spec_bind, spec_handle, spec_ret]
    refine spec_readBytes roundTrip hs hlife (fun data r s' hr h => ?_) fun e s' h he => ?_
    · rw [hr]
      exact h
    · cases e with
      | value => exact absurd rfl he
      | notFound | os => exact failed s' h

end Gets

/-! ### Requests -/

def Done (fmt : Format ρ) (j : Nat) (a : Option ρ) (s : State ρ) : Action ρ → Prop
  | .put r => ∃ f, .returned j r f ∈ s.history
  | .get p => ∀ r, a = some r → ∃ i, .replaced i r ∈ s.history ∧ fmt.path r = p

def Raised : Action ρ → Prop
  | .put _ => True
  | .get _ => False

theorem Done.suffix {fmt : Format ρ} {j : Nat} {a : Option ρ} {s s' : State ρ} {action : Action ρ}
    (h : Done fmt j a s action) (hs : s.history <:+ s'.history) : Done fmt j a s' action := by
  cases action with
  | put r =>
    obtain ⟨f, hf⟩ := h
    exact ⟨f, hs.subset hf⟩
  | get p =>
    intro r hr
    obtain ⟨i, hi, hp⟩ := h r hr
    exact ⟨i, hs.subset hi, hp⟩

section Requests

variable {store : Store} {fmt : Format ρ} {j : Nat} {s : State ρ}

theorem spec_received {t : Request ρ} {Q : Option ρ → State ρ → Prop} {E : Error → State ρ → Prop}
    (inv : Inv store fmt s) (hfresh : own j s.history = [])
    (h : Inv store fmt (s.note (.received j t.action)) →
      (answer store fmt t.life j t.action).Spec (logic store fmt j) Q E
        (s.note (.received j t.action))) :
    (dispatch store fmt j t).Spec (logic store fmt j) Q E s := by
  have inv' : Inv store fmt (s.note (.received j t.action)) := inv.note hfresh trivial
  rw [dispatch, spec_do, spec_modify]
  exact ⟨guar_note rfl, inv', h inv'⟩

theorem spec_put {life : Nat} {r : ρ} (inv : Inv store fmt s) (hfresh : own j s.history = [])
    (hlife : life = s.life) :
    (dispatch store fmt j ⟨life, .put r⟩).Spec (logic store fmt j)
      (fun _ s' => ∃ f, .returned j r f ∈ s'.history) (fun _ _ => True) s := by
  refine spec_received inv hfresh fun inv' => ?_
  have unnamed : Unnamed j r (s.note (.received j (.put r))) := by
    refine ⟨List.mem_cons_self, fun r' hmem => ?_⟩
    rcases List.mem_cons.mp hmem with heq | hmem
    · cases heq
    · have hown : Event.replaced j r' ∈ own j s.history := mem_own hmem
      rw [hfresh] at hown
      cases hown
  simp only [answer, bind_eq, spec_bind, spec_modify]
  refine (spec_write (s := s.note (.received j (.put r))) hlife.symm unnamed).mono
    (fun _ s₁ h₁ => ?_) fun _ _ h => h
  obtain ⟨inv₁, -, k, ⟨hreplaced, hk⟩, hsafe⟩ := h₁
  exact ⟨guar_note rfl, inv₁.returned hreplaced hk hsafe, _, List.mem_cons_self⟩

theorem spec_get {life : Nat} {p : Path} (roundTrip : ∀ r, fmt.decode (fmt.encode r) = some r)
    (inv : Inv store fmt s) (hfresh : own j s.history = []) (hlife : life = s.life) :
    (dispatch store fmt j ⟨life, .get p⟩).Spec (logic store fmt j)
      (fun a s' => Found store fmt p s.history j a s') (fun _ _ => False) s :=
  spec_received inv hfresh fun _ => spec_read roundTrip (List.suffix_cons _ _) hlife.symm

theorem spec_dispatch (roundTrip : ∀ r, fmt.decode (fmt.encode r) = some r) (t : Request ρ)
    (inv : Inv store fmt s) (hfresh : own j s.history = []) (hlife : t.life = s.life) :
    (dispatch store fmt j t).Spec (logic store fmt j) (fun a s' => Done fmt j a s' t.action)
      (fun _ _ => Raised t.action) s := by
  obtain ⟨life, action⟩ := t
  cases action with
  | put r => exact spec_put inv hfresh hlife
  | get p =>
    refine (spec_get roundTrip inv hfresh hlife).mono (fun a s' h r hr => ?_) fun _ _ h => h
    obtain ⟨i, hi, hp, -⟩ := h.record r hr
    exact ⟨i, hi, hp⟩

end Requests

def contract (store : Store) (fmt : Format ρ)
    (roundTrip : ∀ r, fmt.decode (fmt.encode r) = some r) : Contract (system store fmt) where
  inv := Inv store fmt
  rely := Rely
  guar := Guar
  fresh j s := own j s.history = []
  post j t a s := Done fmt j a s t.action
  postE _ t _ _ := Raised t.action
  refl := Rely.refl
  trans _ _ _ _ := Rely.trans
  guar_rely _ _ _ _ := Guar.rely
  fresh_rely _ _ _ hf hr := hr.kept.2.trans hf
  post_rely _ _ _ _ _ h hr := h.suffix hr.kept.1
  postE_rely _ _ _ _ _ h _ := h
  world s w inv _ := by
    cases w with
    | kill =>
      exact ⟨⟨inv.causal, inv.linked, inv.whole, inv.order, inv.standing, inv.counted, inv.files⟩,
        fun k => ⟨Kept.refl k _, Nat.le_succ _, fun h => absurd h (Nat.succ_ne_self _)⟩⟩
    | power back lost =>
      exact ⟨inv.losePower,
        fun k => ⟨Kept.refl k _, Nat.le_succ _, fun h => absurd h (Nat.succ_ne_self _)⟩⟩
  handler _ t _ inv hf hlife := spec_dispatch roundTrip t inv hf hlife

abbrev Requests (ρ : Type) := Pool (State ρ) Res Error (Option ρ) (Request ρ)

section Runs

variable {store : Store} {fmt : Format ρ} {p : Requests ρ}

theorem holds_of_reachable (roundTrip : ∀ r, fmt.decode (fmt.encode r) = some r)
    (reach : (system store fmt).Reachable .start p) : (contract store fmt roundTrip).Holds p := by
  have entry : ∀ {n : Path} {k : Nat} {f : Option Nat},
      ((State.start : State ρ).medium.entries n)[k]? = some f → k = 0 ∧ f = none := by
    intro n k f h
    have h' : [(none : Option Nat)][k]? = some f := h
    obtain ⟨hk, hf⟩ := List.getElem?_eq_some_iff.mp h'
    obtain rfl : k = 0 := by simpa using hk
    exact ⟨rfl, hf.symm⟩
  have inv : Inv store fmt .start := by
    refine ⟨trivial, fun n k i h => ?_, by simp [State.start], fun n a b i i' _ ha _ => ?_,
      by simp [State.start], by simp [State.start], fun n k h => (entry h).1⟩
    · cases (entry h).2
    · cases (entry ha).2
  exact (contract store fmt roundTrip).sound inv (fun _ => rfl) reach

theorem received_once {h : List (Event ρ)} {t : Nat} {a a' : Action ρ} (hc : Always Causal h)
    (hs : .received t a ∈ h) (hs' : .received t a' ∈ h) : a = a' := by
  refine (Event.received.inj (hc.unique (K := fun e => ∃ a, e = .received t a) ?_ hs hs' ⟨a, rfl⟩
    ⟨a', rfl⟩)).2
  rintro _ past hown ⟨a, rfl⟩ _ hmem ⟨a', rfl⟩
  have : Event.received t a' ∈ own t past := mem_own hmem
  rw [show own t past = [] from hown] at this
  cases this

theorem received_of_task (roundTrip : ∀ r, fmt.decode (fmt.encode r) = some r)
    (reach : (system store fmt).Reachable .start p) {j : Nat} {t : Request ρ}
    {q : Proc (State ρ) Res Error (Option ρ)} (hj : p.tasks[j]? = some (t, q)) :
    .received j t.action ∈ p.state.history := by
  obtain ⟨ms, run⟩ := reach
  refine (run.invariant (P := fun p => (contract store fmt roundTrip).Holds p ∧ ∀ j t q,
    p.tasks[j]? = some (t, q) → .received j t.action ∈ p.state.history) ?_
    ⟨holds_of_reachable roundTrip ⟨[], .nil _⟩, by simp [System.initial]⟩).2 j t q hj
  rintro p m legal ⟨hold, known⟩
  refine ⟨hold.next m legal, fun j t q hq => ?_⟩
  have grows : p.state.history <:+ ((system store fmt).next p m).state.history :=
    hold.run_rel (R := fun s s' => s.history <:+ s'.history) (fun _ => List.suffix_refl _)
      (fun _ _ _ => List.IsSuffix.trans) (fun _ _ _ (hg : Guar _ _ _) => hg.suffix)
      (fun _ w _ => by cases w <;> exact List.suffix_refl _) (.cons legal (.nil _))
  obtain ⟨q', hq'⟩ | ⟨rfl, rfl⟩ := System.request_next hq
  · exact grows.subset (known j t q' hq')
  · have hs := spec_dispatch roundTrip t hold.inv (hold.fresh _ (Nat.le_refl _)) legal
    rw [dispatch, spec_do, spec_modify] at hs
    have chain := (Proc.Spec.run hs.2.2 hs.2.1).2.1
    have rely := (contract store fmt roundTrip).rely_of_chain (Nat.succ_ne_self _).symm chain
    exact (show Rely _ _ _ from rely).kept.1.subset List.mem_cons_self

theorem put_of_replaced (roundTrip : ∀ r, fmt.decode (fmt.encode r) = some r)
    (reach : (system store fmt).Reachable .start p) {i : Nat} {r : ρ}
    (hr : .replaced i r ∈ p.state.history) :
    ∃ life q, p.tasks[i]? = some (⟨life, .put r⟩, q) := by
  have hold := holds_of_reachable roundTrip reach
  obtain ⟨past, hs⟩ := exists_suffix_of_mem hr
  have hreceived : .received i (.put r) ∈ p.state.history :=
    ((List.suffix_cons _ _).trans hs).subset (hold.inv.causal.at hs).2
  have hlt : i < p.tasks.length := by
    by_contra hge
    have hown : Event.received i (.put r) ∈ own i p.state.history := mem_own hreceived
    rw [show own i p.state.history = [] from hold.fresh i (by omega)] at hown
    cases hown
  obtain ⟨⟨t, q⟩, hq⟩ : ∃ u, p.tasks[i]? = some u := ⟨_, List.getElem?_eq_getElem hlt⟩
  have hknown := received_of_task roundTrip reach hq
  obtain ⟨life, action⟩ := t
  obtain rfl : action = .put r := received_once hold.inv.causal hknown hreceived
  exact ⟨life, q, hq⟩

/-- Nothing but whole records.  In every run, with any puts and gets that overlap, any calls that
fail, any kills and any losses of power, a get that comes back with a record comes back with one that
was put under its path, and no get raises. -/
theorem gets_whole (store : Store) (fmt : Format ρ)
    (roundTrip : ∀ r, fmt.decode (fmt.encode r) = some r) (p : Requests ρ)
    (reach : (system store fmt).Reachable .start p) (g life : Nat) (path : Path) :
    (∀ r, p.ended g = some (⟨life, .get path⟩, some (.ok (some r))) → fmt.path r = path ∧
      ∃ (i life' : Nat) (q : Task ρ (Option ρ)), p.tasks[i]? = some (⟨life', .put r⟩, q)) ∧
    ∀ e, p.ended g ≠ some (⟨life, .get path⟩, some (.error e)) := by
  have hold := holds_of_reachable roundTrip reach
  refine ⟨fun r hg => ?_, fun e hg => ?_⟩
  · have hdone := (hold.tasks g _ _ (Pool.task_of_ended hg)).2
    obtain ⟨i, hi, hp⟩ := hdone r rfl
    exact ⟨hp, i, put_of_replaced roundTrip reach hi⟩
  · exact (hold.tasks g _ _ (Pool.task_of_ended hg)).2

def sampleFormat : Format Unit where
  path _ := ⟨"plans", "a.json"⟩
  encode _ := [123, 125, 10]
  decode data := if data = [123, 125, 10] then some () else none

def samplePut : Request Unit := ⟨0, .put ()⟩

/-- By the process after the loss of power. -/
def sampleGet : Request Unit := ⟨1, .get ⟨"plans", "a.json"⟩⟩

def sampleAnswer : (o : Op) → Res o
  | ⟨_, .write data⟩ => .ok data.length
  | ⟨_, .isSymlink _⟩ => .ok false
  | ⟨_, .isFile _⟩ => .ok true
  | ⟨_, .size _⟩ => .ok 3
  | ⟨_, .open _⟩ => .ok 0
  | ⟨_, .read _⟩ => .ok [123, 125, 10]
  | ⟨_, .mkstemp _⟩ | ⟨_, .fsync⟩ | ⟨_, .close⟩ | ⟨_, .chmod⟩ | ⟨_, .replace _⟩
  | ⟨_, .openDirectory _⟩ | ⟨_, .fsyncDirectory _⟩ | ⟨_, .closeDirectory⟩ => .ok ()
  | ⟨_, .unlink⟩ => .error .notFound

abbrev sampleSystem := system storageOperationStore sampleFormat

theorem sample_roundTrip (r : Unit) : sampleFormat.decode (sampleFormat.encode r) = some r := rfl

def samplePutMoves : List (Move Res (Request Unit) Fault) :=
  .start samplePut ::
    (List.replicate 10 (.resume 0 sampleAnswer) ++ [.world (.power (fun _ => 0) fun _ => [])])

def sampleGetMoves : List (Move Res (Request Unit) Fault) :=
  List.replicate 4 (.resume 1 sampleAnswer)

theorem samplePut_run : sampleSystem.Run (System.initial .start) samplePutMoves
      (sampleSystem.play (System.initial .start) samplePutMoves) := by
  refine .cons rfl ?_
  iterate 9 refine .cons ⟨_, _, _, rfl, rfl, trivial⟩ ?_
  exact .cons ⟨_, _, _, rfl, rfl, nofun⟩ (.cons trivial (.nil _))

theorem sampleGet_ends : let p := sampleSystem.play (System.initial .start) samplePutMoves
    ∃ p', sampleSystem.Ends p sampleGet (.ok (some ())) p' ∧ .failed 1 ∉ p'.state.history := by
  intro p
  have run : sampleSystem.Run (sampleSystem.next p (.start sampleGet)) sampleGetMoves
      (sampleSystem.play (sampleSystem.next p (.start sampleGet)) sampleGetMoves) := by
    refine .cons ⟨_, _, _, rfl, rfl, rfl⟩ (.cons ⟨_, _, _, rfl, rfl, rfl⟩ ?_)
    exact .cons ⟨_, _, _, rfl, rfl, 0, rfl, rfl⟩ (.cons ⟨_, _, _, rfl, rfl, rfl⟩ (.nil _))
  refine ⟨_, ⟨rfl, ⟨_, _, .resume 1 sampleAnswer, run, rfl, ⟨_, _, _, rfl, rfl, rfl⟩, rfl⟩, rfl⟩,
    ?_⟩
  show Event.failed 1 ∉ [.received 1 (.get ⟨"plans", "a.json"⟩), .returned 0 () 0, .failed 0,
    .replaced 0 (), .received 0 (.put ())]
  simp

theorem gets_whole_run : ∃ p : Requests Unit, p.ended 1 = some (sampleGet, some (.ok (some ()))) ∧
    ∃ (i life' : Nat) (q : Task Unit (Option Unit)), p.tasks[i]? = some (⟨life', .put ()⟩, q) := by
  obtain ⟨p', hends, -⟩ := sampleGet_ends
  have reach := hends.reachable (s := .start) ⟨_, samplePut_run⟩
  exact ⟨p', hends.ended,
    ((gets_whole storageOperationStore sampleFormat sample_roundTrip p' reach 1 1 _).1 ()
      hends.ended).2⟩

/-- A put that has returned stays.  A get of its path that begins after it, and none of whose own
calls fail, comes back with its record or with one whose file was given the name later: always where
the store writes the directory to the medium, and otherwise while the power is on. -/
theorem puts_stay (store : Store) (fmt : Format ρ)
    (roundTrip : ∀ r, fmt.decode (fmt.encode r) = some r) (p : Requests ρ)
    (reach : (system store fmt).Reachable .start p) (j : Nat) (r : ρ) :
    (∀ life a, p.ended j = some (⟨life, .put r⟩, some (.ok a)) →
      ∃ f, .returned j r f ∈ p.state.history) ∧
    ∀ f, .returned j r f ∈ p.state.history → ∀ life result p',
      (system store fmt).Ends p ⟨life, .get (fmt.path r)⟩ result p' →
      store.syncsDirectory = true ∨ p'.state.failures = f →
      .failed p.tasks.length ∉ p'.state.history →
      ∃ i r', result = .ok (some r') ∧ fmt.path r' = fmt.path r ∧ NotAfter j i p'.state.history ∧
        ∃ (life' : Nat) (q : Task ρ (Option ρ)), p'.tasks[i]? = some (⟨life', .put r'⟩, q) := by
  have hold := holds_of_reachable roundTrip reach
  refine ⟨fun life a hj => (hold.tasks j _ _ (Pool.task_of_ended hj)).2,
    fun f hr life result p' hends hf hfailed => ?_⟩
  have spec := spec_get (p := fmt.path r) roundTrip hold.inv (hold.fresh _ (Nat.le_refl _))
    hends.start
  obtain ⟨hok, herror⟩ := hold.at_end hends spec
  have stands : Stands store fmt (fmt.path r) p.state.history j p'.state := ⟨r, f, hr, rfl, hf⟩
  cases result with
  | error e => exact (herror e rfl).elim
  | ok a =>
    have found := hok a rfl
    cases a with
    | none =>
      rcases found.missing rfl with h | h
      · exact absurd h hfailed
      · exact absurd stands (h j)
    | some r' =>
      obtain ⟨i, hi, hp, hn⟩ := found.record r' rfl
      exact ⟨i, r', rfl, hp, hn j stands, put_of_replaced roundTrip (hends.reachable reach) hi⟩

theorem puts_stay_run : ∃ p p' : Requests Unit,
    sampleSystem.Ends p ⟨1, .get ⟨"plans", "a.json"⟩⟩ (.ok (some ())) p' ∧
    ∃ i, NotAfter 0 i p'.state.history ∧
      ∃ (life' : Nat) (q : Task Unit (Option Unit)), p'.tasks[i]? = some (⟨life', .put ()⟩, q) := by
  obtain ⟨p', hends, hfailed⟩ := sampleGet_ends
  obtain ⟨i, ⟨⟩, -, -, hn, hput⟩ := (puts_stay storageOperationStore sampleFormat sample_roundTrip _
    ⟨_, samplePut_run⟩ 0 ()).2 0 List.mem_cons_self 1 _ p' hends (.inl rfl) hfailed
  exact ⟨_, p', hends, i, hn, hput⟩

end Runs

end Ares.Stores
