import Ares.Operations.Quiet
import Ares.Operations.Reconcile

/-! The lifecycle of a transaction.  Every change of a stored status follows the lifecycle in the
runs in which a write finds the transaction as far as its task has seen it.  The code does not
check this: a task reads a record, waits, and then writes a copy of what it read. -/

namespace Ares.Operations.Lifecycle

open Coop Data Storage

def phase : StorageTransactionStatus → Nat
  | .planned | .validated | .protected_ => 0
  | .authorized => 1
  | .executing => 2
  | .verifying => 3
  | .unknown => 4
  | .committed | .failed | .aborted => 5

/-- The arrows of the lifecycle.  An execution may fail as soon as it is authorized, and its outcome
may be unknown as soon as it is stored as executing. -/
def arrow (old new : StorageTransactionStatus) : Bool :=
  match new with
  | .planned | .validated | .protected_ | .authorized => phase old = 0
  | .executing => old = .authorized
  | .verifying => old = .executing
  | .committed => old = .verifying
  | .failed => old = .authorized || old = .executing || old = .verifying
  | .unknown => old = .executing || old = .verifying
  | .aborted => phase old = 0 || old = .authorized

/-- The lifecycle lets `writer` replace the status `old` by `new`: along an arrow, or by a
reconciliation of an unknown outcome. -/
def follows (writer : Writer) (old new : StorageTransactionStatus) : Bool :=
  old = new || arrow old new ||
  (writer = .reconciled && old = .unknown && (new = .committed || new = .aborted))

/-- The lifecycle leads from `a` to `b`. -/
def Before (a b : StorageTransactionStatus) : Prop :=
  a = b ∨ phase a < phase b ∨ phase a = 0 ∧ phase b = 0

def SamePhase (a b : StorageTransactionStatus) : Prop := a = b ∨ phase a = 0 ∧ phase b = 0

instance (a b : StorageTransactionStatus) : Decidable (SamePhase a b) :=
  inferInstanceAs (Decidable (a = b ∨ phase a = 0 ∧ phase b = 0))

section Phases

variable {a b c : StorageTransactionStatus} {w : Writer}

theorem Before.refl (a : StorageTransactionStatus) : Before a a := .inl rfl

theorem Before.trans (h : Before a b) (h' : Before b c) : Before a c := by
  rcases h with rfl | h
  · exact h'
  · rcases h' with rfl | h'
    · exact .inr h
    · exact .inr (by omega)

theorem Before.phase_le (h : Before a b) : phase a ≤ phase b := by
  rcases h with rfl | h | h <;> omega

theorem Before.antisymm (h : Before a b) (h' : Before b a) : SamePhase a b := by
  have hle := h'.phase_le
  rcases h with rfl | h | h
  · exact .inl rfl
  · omega
  · exact .inr h

theorem SamePhase.phase_eq (h : SamePhase a b) : phase a = phase b := by
  rcases h with rfl | h <;> omega

theorem SamePhase.eq (h : SamePhase a b) (ha : phase a ≠ 0) : a = b := by
  rcases h with h | h
  · exact h
  · exact absurd h.1 ha

theorem SamePhase.before (h : SamePhase b a) (h' : Before c a) : Before c b := by
  rcases h with rfl | h
  · exact h'
  · exact .inr (.inr ⟨by have := h'.phase_le; omega, h.1⟩)

theorem arrow_before (h : arrow a b = true) : Before a b := by
  refine .inr ?_
  cases b <;> simp only [arrow, Bool.or_eq_true, decide_eq_true_eq] at h
  case planned | validated | protected_ => exact .inr ⟨h, rfl⟩
  case authorized => exact .inl (by rw [h]; decide)
  case executing | verifying | committed => subst h; decide
  case failed => rcases h with (rfl | rfl) | rfl <;> decide
  case unknown => rcases h with rfl | rfl <;> decide
  case aborted =>
    rcases h with h | rfl
    · exact .inl (by rw [h]; decide)
    · decide

theorem follows_before (h : follows w a b = true) : Before a b := by
  simp only [follows, Bool.or_eq_true, Bool.and_eq_true, decide_eq_true_eq] at h
  rcases h with (h | h) | ⟨⟨-, rfl⟩, rfl | rfl⟩
  · exact .inl h
  · exact arrow_before h
  · exact .inr (.inl (by decide))
  · exact .inr (.inl (by decide))

theorem follows_of_arrow (h : arrow a b = true) : follows w a b = true := by
  simp [follows, h]

theorem follows_of_zero (ha : phase a = 0) (hb : phase b = 0) : follows w a b = true := by
  refine follows_of_arrow ?_
  cases b <;> first | exact decide_eq_true ha | cases hb

theorem arrow_unknown (h : 2 ≤ phase a) (h' : phase a ≤ 3) : arrow a .unknown = true := by
  cases a <;> simp_all [arrow, phase]

theorem follows_self (a : StorageTransactionStatus) : follows w a a = true := by
  simp [follows]

end Phases

/-! ### The condition -/

/-- A write of a transaction finds the status that its task saw first or stored last, the
`mark_failed` in the catch-all of `_execute_task` finds no unknown outcome, and a verdict is stored
by a task that has stored the verification before it. -/
def fresh (s : State) : (o : Op) → Res o → Bool
  | .write task writer (.transaction t) _, true =>
    (match s.seen task with
      | none => (s.status t.operationId).isNone
      | some (op, b) => (s.status op).any fun a => decide (SamePhase b a)) &&
    (writer ≠ .escaped || s.status t.operationId ≠ some .unknown) &&
    (writer ≠ .verified || s.seen task = some (t.operationId, .verifying))
  | _, _ => true

/-- What a fresh write of `writer` finds in a task that has seen the status `b` and knows that `c`
was stored. -/
structure Finds (writer : Writer) (c b a : StorageTransactionStatus) : Prop where
  same : SamePhase b a
  later : Before c b
  escaped : writer = .escaped → a ≠ .unknown
  verified : writer = .verified → b = .verifying

theorem fresh_write {s : State} {task : Nat} {writer : Writer} {t : StorageTransaction}
    {base : Option StorageOperationRecord}
    (h : fresh s (.write task writer (.transaction t) base) true = true) :
    (∀ op b, s.seen task = some (op, b) → ∃ a, s.status op = some a ∧ SamePhase b a) ∧
    (s.seen task = none → s.status t.operationId = none) ∧
    (writer = .escaped → s.status t.operationId ≠ some .unknown) ∧
    (writer = .verified → s.seen task = some (t.operationId, .verifying)) := by
  simp only [fresh, Bool.and_eq_true, Bool.or_eq_true, decide_eq_true_eq] at h
  obtain ⟨⟨hseen, hescaped⟩, hverified⟩ := h
  refine ⟨fun op b hb => ?_, fun hnone => ?_, fun hw => hescaped.resolve_left fun h => h hw,
    fun hw => hverified.resolve_left fun h => h hw⟩
  · simpa [hb, Option.any_eq_true] using hseen
  · simpa [hnone] using hseen

/-- The runs whose writes are all fresh. -/
def freshSystem (cfg : Config) : System State Res Error Response Request World :=
  (system cfg).restrict (fun _ _ => True) fun s o r => fresh s o r = true

/-! ### The invariant -/

/-- The stored status of an operation is `b` or later. -/
def AtLeast (s : State) (operationId : String) (b : StorageTransactionStatus) : Prop :=
  ∃ c, s.status operationId = some c ∧ Before b c

def Awaited (cfg : Config) (s : State) : Request → Prop
  | .authorizeTask _ operationId _ seen =>
    seen = some (safeId cfg operationId, .protected_) ∧
      AtLeast s (safeId cfg operationId) .protected_
  | .executeTask _ input seen =>
    seen = some (safeId cfg input.operationId, .authorized) ∧
      AtLeast s (safeId cfg input.operationId) .authorized
  | _ => True

structure Inv (cfg : Config) (s : State) : Prop where
  keyed : ∀ k t, s.transactions k = some t → t.operationId = k
  lifecycle : ∀ j w op a b, .stored j w op (some a) b ∈ s.history → follows w a b = true
  seen : ∀ j op b, s.seen j = some (op, b) → AtLeast s op b
  pending : ∀ r ∈ s.pending, Awaited cfg s r

/-- No status of `s` is taken back in `s'`. -/
def Onward (s s' : State) : Prop := ∀ op b, AtLeast s op b → AtLeast s' op b

def rely (j : Nat) (s s' : State) : Prop := s'.seen j = s.seen j ∧ Onward s s'

def guar (j : Nat) (s s' : State) : Prop := (∀ i, i ≠ j → s'.seen i = s.seen i) ∧ Onward s s'

/-- Two states with the same transactions and the same views of them. -/
structure SameRecords (s s' : State) : Prop where
  transactions : s'.transactions = s.transactions
  seen : s'.seen = s.seen
  pending : s'.pending = s.pending
  history : ∀ j w op a b, .stored j w op a b ∈ s'.history → .stored j w op a b ∈ s.history

theorem SameRecords.onward {s s' : State} (h : SameRecords s s') : Onward s s' := by
  intro op b hb
  simpa only [AtLeast, State.status, h.transactions] using hb

theorem Awaited.onward {cfg : Config} {s s' : State} (h : Onward s s') {r : Request}
    (hr : Awaited cfg s r) : Awaited cfg s' r := by
  cases r with
  | authorizeTask => exact ⟨hr.1, h _ _ hr.2⟩
  | executeTask => exact ⟨hr.1, h _ _ hr.2⟩
  | _ => trivial

theorem Inv.same {cfg : Config} {s s' : State} (hi : Inv cfg s) (h : SameRecords s s') :
    Inv cfg s' where
  keyed k t ht := hi.keyed k t (h.transactions ▸ ht)
  lifecycle j w op a b he := hi.lifecycle j w op a b (h.history j w op (some a) b he)
  seen j op b hb := h.onward op b (hi.seen j op b (h.seen ▸ hb))
  pending r hr := (hi.pending r (h.pending ▸ hr)).onward h.onward

theorem rely_refl (j : Nat) (s : State) : rely j s s := ⟨rfl, fun _ _ h => h⟩

theorem rely_trans {j : Nat} {s s' s'' : State} (h : rely j s s') (h' : rely j s' s'') :
    rely j s s'' :=
  ⟨h'.1.trans h.1, fun op b hb => h'.2 op b (h.2 op b hb)⟩

theorem seen_see (j : Nat) (t : StorageTransaction) (s : State) :
    (s.see j t).seen = Function.update s.seen j
      ((s.seen j).or (some (t.operationId, t.status))) := by
  unfold State.see
  cases h : s.seen j with
  | none => simp
  | some x =>
    simp only [Option.isSome_some, if_true, Option.some_or]
    rw [← h, Function.update_eq_self]

theorem onward_see (j : Nat) (t : StorageTransaction) (s : State) : Onward s (s.see j t) := by
  intro op b hb
  unfold State.see
  split <;> exact hb

theorem Inv.see {cfg : Config} {s : State} (hi : Inv cfg s) {j : Nat} {t : StorageTransaction}
    (ht : s.transactions t.operationId = some t) : Inv cfg (s.see j t) where
  keyed k u hu := hi.keyed k u (by rwa [(SameStore.see j t s).transactions] at hu)
  lifecycle i w op a b he := hi.lifecycle i w op a b (by
    unfold State.see at he
    split at he <;> exact he)
  seen i op b hb := by
    apply onward_see
    rw [seen_see] at hb
    by_cases hij : i = j
    · subst hij
      rw [Function.update_self] at hb
      cases h : s.seen i with
      | none =>
        rw [h, Option.none_or, Option.some.injEq, Prod.mk.injEq] at hb
        rw [← hb.1, ← hb.2]
        exact ⟨t.status, by rw [State.status, ht, Option.map_some], .refl _⟩
      | some x =>
        rw [h, Option.some_or] at hb
        exact hi.seen i op b (by rw [h, hb])
    · rw [Function.update_of_ne hij] at hb
      exact hi.seen i op b hb
  pending r hr := (hi.pending r (by
    unfold State.see at hr
    split at hr <;> exact hr)).onward (onward_see j t s)

theorem Inv.store {cfg : Config} {s : State} (hi : Inv cfg s) {j : Nat} {w : Writer}
    {t : StorageTransaction}
    (hfollows : ∀ a, s.status t.operationId = some a → follows w a t.status = true) :
    Inv cfg (s.storeTransaction j w t) ∧ guar j s (s.storeTransaction j w t) := by
  have hself : AtLeast (s.storeTransaction j w t) t.operationId t.status := by
    exact ⟨t.status, by rw [State.storeTransaction_status, if_pos rfl], .refl _⟩
  have honward : Onward s (s.storeTransaction j w t) := by
    rintro op b ⟨a, ha, hba⟩
    by_cases hop : op = t.operationId
    · subst hop
      obtain ⟨c, hc, htc⟩ := hself
      exact ⟨c, hc, (hba.trans (follows_before (hfollows a ha))).trans htc⟩
    · exact ⟨a, by rw [State.storeTransaction_status, if_neg hop, ha], hba⟩
  refine ⟨⟨?_, ?_, ?_, ?_⟩, ?_, honward⟩
  · intro k u hu
    by_cases hk : k = t.operationId
    · subst hk
      simp only [State.storeTransaction_transactions, Function.update_self, Option.some.injEq] at hu
      rw [← hu]
    · rw [State.storeTransaction_transactions, Function.update_of_ne hk] at hu
      exact hi.keyed k u hu
  · intro i v op a b he
    rcases List.mem_cons.mp he with heq | he
    · injection heq with _ hw hop ha hb
      subst hw hop hb
      exact hfollows a ha.symm
    · exact hi.lifecycle i v op a b he
  · intro i op b hb
    by_cases hij : i = j
    · subst hij
      simp only [State.storeTransaction_seen, Function.update_self, Option.some.injEq,
        Prod.mk.injEq] at hb
      rw [← hb.1, ← hb.2]
      exact hself
    · rw [State.storeTransaction_seen, Function.update_of_ne hij] at hb
      exact honward op b (hi.seen i op b hb)
  · exact fun r hr => (hi.pending r hr).onward honward
  · intro i hij
    rw [State.storeTransaction_seen, Function.update_of_ne hij]

/-! ### The store -/

/-- The promises of the task `j`. -/
def logic (cfg : Config) (j : Nat) : Logic State Res :=
  ⟨Inv cfg, rely j, guar j, (freshSystem cfg).answers⟩

/-- The task has seen the operation `k`, in a status of which `P` holds. -/
def View (k : String) (P : StorageTransactionStatus → Prop) (x : Seen) : Prop :=
  ∃ b, x = some (k, b) ∧ P b

section Store

variable {cfg : Config} {j : Nat} {s : State} {k : String} {b c : StorageTransactionStatus}

theorem keeps_quiet {α : Type} {p : Task α} (V : Seen → Prop) (quiet : p.Quiet) :
    p.Keeps (logic cfg j) fun s => V (s.seen j) :=
  quiet.keeps fun s s' hr h => by rw [hr.1]; exact h

theorem keeps_same (V : Seen → Prop) {g : State → State} (same : ∀ s, SameRecords s (g s)) :
    (Proc.modify g : Task Unit).Keeps (logic cfg j) fun s => V (s.seen j) := by
  refine keeps_modify fun s hi h => ⟨⟨fun i _ => ?_, (same s).onward⟩, hi.same (same s), ?_⟩
  · rw [(same s).seen]
  · rw [(same s).seen]
    exact h

theorem put_keeps (V : Seen → Prop) (w : Writer) {d : Document}
    (base : Option StorageOperationRecord) (hd : ∀ t, d ≠ .transaction t) :
    (put j w d base).Keeps (logic cfg j) fun s => V (s.seen j) := by
  have hsame : ∀ s : State, SameRecords s (s.store j w d) := by
    intro s
    cases d with
    | transaction t => exact absurd rfl (hd t)
    | _ => exact ⟨rfl, rfl, rfl, fun _ _ _ _ _ h => h⟩
  refine (keeps_quiet V quiet_attempt).bind fun _ =>
    (keeps_quiet V quiet_perform).bind fun written => ?_
  refine Proc.Keeps.bind ?_ fun _ => (keeps_quiet V quiet_attempt).bind fun _ =>
    keeps_quiet V quiet_require
  cases written
  · exact keeps_ret _
  · exact keeps_same V hsame

theorem spec_quiet {α : Type} {p : Task α} (quiet : p.Quiet) (hi : Inv cfg s) {Q : α → State → Prop}
    {E : Error → State → Prop} (hQ : ∀ a s', Inv cfg s' → rely j s s' → Q a s')
    (hE : ∀ e s', Inv cfg s' → rely j s s' → E e s') : p.Spec (logic cfg j) Q E s :=
  quiet.spec (rely_refl j) (fun _ _ _ => rely_trans) hi hQ hE

/-- What a task knows that has read the transaction `t` of the operation `k`, from the state
`s`. -/
structure Knows (j : Nat) (s : State) (k : String) (t : StorageTransaction) (s' : State) : Prop where
  key : t.operationId = k
  seen : s'.seen j = (s.seen j).or (some (k, t.status))
  stored : AtLeast s' k t.status
  later : ∀ b, s.seen j = some (k, b) → Before b t.status

theorem Knows.rely {t : StorageTransaction} {s' s'' : State} (h : Knows j s k t s')
    (hr : rely j s' s'') : Knows j s k t s'' :=
  ⟨h.key, hr.1.trans h.seen, hr.2 _ _ h.stored, h.later⟩

/-- The task `j` has read documents between `s` and `s'`. -/
structure Reads (j : Nat) (s s' : State) : Prop where
  seen : ∀ x, s.seen j = some x → s'.seen j = some x
  onward : Onward s s'

theorem reads_of_rely {s' : State} (h : rely j s s') : Reads j s s' :=
  ⟨fun _ hx => h.1.trans hx, h.2⟩

theorem Reads.rely {s' s'' : State} (h : Reads j s s') (hr : rely j s' s'') : Reads j s s'' :=
  ⟨fun x hx => hr.1.trans (h.seen x hx), fun op b hb => hr.2 op b (h.onward op b hb)⟩

theorem getTransaction_spec (hi : Inv cfg s) (operationId : String) :
    (getTransaction cfg j operationId).Spec (logic cfg j)
      (fun r s' => Inv cfg s' ∧ Reads j s s' ∧
        ∀ t, r = some t → Knows j s (safeId cfg operationId) t s')
      (fun _ s' => Inv cfg s' ∧ Reads j s s') s := by
  simp only [getTransaction, get, bind_eq, spec_bind]
  refine spec_quiet quiet_attempt hi (fun readable s1 hi1 hr1 => ?_)
    fun e s1 hi1 hr1 => ⟨hi1, reads_of_rely hr1⟩
  cases readable with
  | false => exact ⟨hi1, reads_of_rely hr1, fun t ht => by cases ht⟩
  | true =>
    simp only [if_true, spec_reading]
    cases ht : s1.transactions (safeId cfg operationId) with
    | none => exact ⟨hi1, reads_of_rely hr1, fun t ht => by cases ht⟩
    | some t =>
      have hkey := hi1.keyed _ _ ht
      have hstored : s1.transactions t.operationId = some t := by rw [hkey, ht]
      have hseen : (s1.see j t).seen j = (s.seen j).or (some (safeId cfg operationId, t.status)) := by
        rw [seen_see, Function.update_self, hr1.1, hkey]
      have hstatus : s1.status (safeId cfg operationId) = some t.status := by
        rw [State.status, ht, Option.map_some]
      refine ⟨⟨fun i hij => ?_, onward_see j t s1⟩, hi1.see hstored, hi1.see hstored,
        ⟨fun x hx => by rw [hseen, hx, Option.some_or], fun op b hb =>
          onward_see j t s1 op b (hr1.2 op b hb)⟩, ?_⟩
      · rw [seen_see, Function.update_of_ne hij]
      · rintro u ⟨⟩
        refine ⟨hkey, hseen, onward_see j t s1 _ _ ⟨_, hstatus, .refl _⟩, fun b hb => ?_⟩
        obtain ⟨c, hc, hbc⟩ := hi1.seen j _ b (hr1.1.trans hb)
        rw [hstatus, Option.some.injEq] at hc
        exact hc ▸ hbc

theorem getRecord_spec (hi : Inv cfg s) (operationId : String) :
    (getRecord cfg j operationId).Spec (logic cfg j)
      (fun r s' => Inv cfg s' ∧ Reads j s s' ∧
        ∀ record, r = some record → Knows j s (safeId cfg operationId) record.transaction s')
      (fun _ s' => Inv cfg s' ∧ Reads j s s') s := by
  rw [getRecord, spec_do]
  refine (getTransaction_spec hi operationId).mono (fun r s1 h1 => ?_) fun _ _ h => h
  obtain ⟨hi1, hreads, hknows⟩ := h1
  cases r with
  | none => exact ⟨hi1, hreads, fun record h => by cases h⟩
  | some t =>
    show (getRest cfg operationId t).Spec _ _ _ s1
    rw [getRest, spec_do]
    refine spec_quiet (get_quiet _) hi1 (fun plan s2 hi2 hr2 => ?_)
      fun _ s2 hi2 hr2 => ⟨hi2, hreads.rely hr2⟩
    cases plan with
    | none => exact ⟨hi2, hreads.rely hr2, fun record h => by cases h⟩
    | some plan =>
      show Proc.Spec _ (Proc.bind (getVerification cfg operationId) _) _ _ s2
      rw [spec_bind]
      refine spec_quiet (get_quiet _) hi2 (fun v s3 hi3 hr3 => ?_)
        fun _ s3 hi3 hr3 => ⟨hi3, (hreads.rely hr2).rely hr3⟩
      refine ⟨hi3, (hreads.rely hr2).rely hr3, ?_⟩
      rintro record ⟨⟩
      exact ((hknows t rfl).rely hr2).rely hr3

/-- A write of a transaction that the task has seen as `b` and that was stored as `c`: where it
lands, the transaction is no further than the task has seen it. -/
theorem putTransaction_spec (hi : Inv cfg s) (hseen : s.seen j = some (k, b)) (hc : AtLeast s k c)
    {w : Writer} {t : StorageTransaction} (hk : t.operationId = k)
    (base : Option StorageOperationRecord)
    (hfollows : ∀ a, Finds w c b a → follows w a t.status = true) :
    (putTransaction j w base t).Spec (logic cfg j)
      (fun _ s' => Inv cfg s' ∧ s'.seen j = some (k, t.status) ∧ Before c b)
      (fun _ s' => Inv cfg s' ∧
        View k (fun x => x = b ∨ x = t.status ∧ Before c b) (s'.seen j)) s := by
  subst hk
  simp only [putTransaction, put, bind_eq, spec_bind]
  refine spec_quiet quiet_attempt hi (fun _ s1 hi1 hr1 => ?_)
    fun _ s1 hi1 hr1 => ⟨hi1, b, hr1.1.trans hseen, .inl rfl⟩
  intro s2 hi2 hr2 written hfresh
  have hseen2 : s2.seen j = some (t.operationId, b) := hr2.1.trans (hr1.1.trans hseen)
  cases written with
  | false =>
    refine spec_quiet quiet_attempt hi2 (fun _ s3 hi3 hr3 => ?_)
      fun _ s3 hi3 hr3 => ⟨hi3, b, hr3.1.trans hseen2, .inl rfl⟩
    exact ⟨hi3, b, hr3.1.trans hseen2, .inl rfl⟩
  | true =>
    obtain ⟨hsame, -, hescaped, hverified⟩ := fresh_write hfresh.2
    obtain ⟨a, ha, hba⟩ := hsame _ _ hseen2
    obtain ⟨c', hc', hcc'⟩ := hr2.2 _ _ (hr1.2 _ _ hc)
    obtain rfl : a = c' := by rwa [ha, Option.some.injEq] at hc'
    have hcb : Before c b := hba.before hcc'
    have hstore : ∀ a', s2.status t.operationId = some a' → follows w a' t.status = true := by
      intro a' ha'
      obtain rfl : a = a' := by rwa [ha, Option.some.injEq] at ha'
      refine hfollows a ⟨hba, hcb, fun hw hun => hescaped hw (by rw [ha, hun]), fun hw => ?_⟩
      have h := hverified hw
      rw [hseen2, Option.some.injEq, Prod.mk.injEq] at h
      exact h.2
    obtain ⟨hi3, hg⟩ := hi2.store (j := j) (w := w) hstore
    refine ⟨hg, hi3, ?_⟩
    have hseen3 : (s2.storeTransaction j w t).seen j = some (t.operationId, t.status) := by
      rw [State.storeTransaction_seen, Function.update_self]
    refine spec_quiet quiet_attempt hi3 (fun _ s4 hi4 hr4 => ?_)
      fun _ s4 hi4 hr4 => ⟨hi4, _, hr4.1.trans hseen3, .inr ⟨rfl, hcb⟩⟩
    exact ⟨hi4, hr4.1.trans hseen3, hcb⟩

theorem putNew_spec (hi : Inv cfg s) (hseen : s.seen j = none) (w : Writer)
    (t : StorageTransaction) (base : Option StorageOperationRecord) :
    (putTransaction j w base t).Spec (logic cfg j) (fun _ s' => Inv cfg s')
      (fun _ s' => Inv cfg s') s := by
  simp only [putTransaction, put, bind_eq, spec_bind]
  refine spec_quiet quiet_attempt hi (fun _ s1 hi1 hr1 => ?_) fun _ s1 hi1 _ => hi1
  intro s2 hi2 hr2 written hfresh
  cases written with
  | false =>
    exact spec_quiet quiet_attempt hi2 (fun _ s3 hi3 _ => hi3) fun _ s3 hi3 _ => hi3
  | true =>
    obtain ⟨-, hnone, -, -⟩ := fresh_write hfresh.2
    have hstatus := hnone (hr2.1.trans (hr1.1.trans hseen))
    obtain ⟨hi3, hg⟩ := hi2.store (j := j) (w := w) fun a ha => by rw [hstatus] at ha; cases ha
    refine ⟨hg, hi3, ?_⟩
    exact spec_quiet quiet_attempt hi3 (fun _ s4 hi4 _ => hi4) fun _ s4 hi4 _ => hi4

end Store

/-! ### The engine -/

section Engine

variable {cfg : Config} {j : Nat} {s : State} {operationId : String}
  {b c : StorageTransactionStatus}

theorem getRecord_known (hi : Inv cfg s) (hseen : s.seen j = some (safeId cfg operationId, b)) :
    (getRecord cfg j operationId).Spec (logic cfg j)
      (fun r s' => Inv cfg s' ∧ s'.seen j = some (safeId cfg operationId, b) ∧ Onward s s' ∧
        ∀ record, r = some record →
          record.transaction.operationId = safeId cfg operationId ∧
          AtLeast s' (safeId cfg operationId) record.transaction.status ∧
          Before b record.transaction.status)
      (fun _ s' => Inv cfg s' ∧ s'.seen j = some (safeId cfg operationId, b)) s := by
  refine (getRecord_spec hi operationId).mono (fun r s' h => ?_)
    fun _ s' h => ⟨h.1, h.2.seen _ hseen⟩
  obtain ⟨hi', hreads, hknows⟩ := h
  refine ⟨hi', hreads.seen _ hseen, hreads.onward, fun record hr => ?_⟩
  have h := hknows record hr
  exact ⟨h.key, h.stored, h.later b hseen⟩

theorem getRecord_keeps (P : StorageTransactionStatus → Prop) :
    (getRecord cfg j operationId).Keeps (logic cfg j)
      fun s => View (safeId cfg operationId) P (s.seen j) := by
  rintro s hi ⟨b, hseen, hb⟩
  exact (getRecord_known hi hseen).mono (fun _ s' h => ⟨h.1, b, h.2.1, hb⟩)
    fun _ s' h => ⟨h.1, b, h.2, hb⟩

theorem setStatus_spec (hi : Inv cfg s) (hseen : s.seen j = some (safeId cfg operationId, b))
    (hc : AtLeast s (safeId cfg operationId) c) {w : Writer} {status : StorageTransactionStatus}
    (errorCode lastKnownStage : Option String) (finished : Bool)
    (hfollows : ∀ a, Finds w c b a → follows w a status = true) :
    (setStatus cfg j w operationId status errorCode lastKnownStage finished).Spec (logic cfg j)
      (fun _ s' => Inv cfg s' ∧ View (safeId cfg operationId) (fun c => c = b ∨ c = status) (s'.seen j))
      (fun _ s' => Inv cfg s' ∧ View (safeId cfg operationId) (fun c => c = b ∨ c = status) (s'.seen j))
      s := by
  rw [setStatus, spec_do]
  refine (getRecord_known hi hseen).mono (fun r s1 h1 => ?_)
    fun _ s1 h1 => ⟨h1.1, b, h1.2, .inl rfl⟩
  obtain ⟨hi1, hseen1, honward, hrecord⟩ := h1
  cases r with
  | none => exact ⟨hi1, b, hseen1, .inl rfl⟩
  | some record =>
    obtain ⟨hkey, -, -⟩ := hrecord record rfl
    show Proc.Spec _ (Proc.bind (reading State.now) _) _ _ s1
    rw [spec_bind, spec_reading]
    refine (putTransaction_spec hi1 hseen1 (honward _ _ hc) ?_ _ ?_).mono
      (fun _ s2 h2 => ⟨h2.1, _, h2.2.1, .inr rfl⟩) fun _ s2 h2 => ?_
    · exact hkey
    · exact hfollows
    · obtain ⟨hi2, x, hx, hb⟩ := h2
      exact ⟨hi2, x, hx, hb.imp_right And.left⟩

theorem markUnknown_spec (hi : Inv cfg s) (hseen : s.seen j = some (safeId cfg operationId, b))
    (hc : AtLeast s (safeId cfg operationId) c)
    (hfollows : ∀ a, SamePhase b a → Before c b → arrow a .unknown = true) (code : String) :
    (markUnknown cfg j operationId code).Spec (logic cfg j)
      (fun _ s' => Inv cfg s' ∧
        View (safeId cfg operationId) (fun c => c = b ∨ c = .unknown) (s'.seen j))
      (fun _ s' => Inv cfg s' ∧
        View (safeId cfg operationId) (fun c => c = b ∨ c = .unknown) (s'.seen j)) s := by
  rw [markUnknown, spec_do]
  refine (getRecord_known hi hseen).mono (fun r s1 h1 => ?_)
    fun _ s1 h1 => ⟨h1.1, b, h1.2, .inl rfl⟩
  obtain ⟨hi1, hseen1, honward, hrecord⟩ := h1
  cases r with
  | none => exact ⟨hi1, b, hseen1, .inl rfl⟩
  | some record =>
    obtain ⟨hkey, -, -⟩ := hrecord record rfl
    refine (putTransaction_spec hi1 hseen1 (honward _ _ hc) ?_ _ ?_).mono
      (fun _ s2 h2 => ⟨h2.1, _, h2.2.1, .inr rfl⟩) fun _ s2 h2 => ?_
    · exact hkey
    · exact fun a h => follows_of_arrow (hfollows a h.same h.later)
    · obtain ⟨hi2, x, hx, hb⟩ := h2
      exact ⟨hi2, x, hx, hb.imp_right And.left⟩

end Engine

end Ares.Operations.Lifecycle
