import Ares.Coop.History
import Ares.Jobs.Runtime
import Ares.Workflows.Protocol

/-! What the tasks of a service keep, where all that they rely on is said for good by the history.
`Rules` says what must be before a mark, and when the history bears out a document of the store, a
dictionary of the actions or the arguments of a background task; a service whose tasks keep to the
rules keeps them in every run. -/

namespace Ares.Jobs

open Coop Workflows

variable {K : Kind} {α β : Type}

structure Rules (K : Kind) where
  base : List K.Doc
  mark : List (Event K) → K.Mark → Prop
  doc : List (Event K) → K.Doc → Prop
  value : List (Event K) → K.Value → Prop
  payload : List (Event K) → K.Payload → Prop
  doc_base : ∀ doc' ∈ base, doc [] doc'
  doc_suffix : ∀ {h h' : List (Event K)} {d}, doc h d → h <:+ h' → doc h' d
  value_suffix : ∀ {h h' : List (Event K)} {v}, value h v → h <:+ h' → value h' v
  payload_suffix : ∀ {h h' : List (Event K)} {p}, payload h p → h <:+ h' → payload h' p

/-- The event may follow the events of a history. -/
def Rules.Lawful (R : Rules K) : Event K → List (Event K) → Prop
  | .marked m, past => R.mark past m
  | .put doc, past => R.doc past doc

/-- The history bears out a document, which the store held at the start or was given since. -/
structure Known (R : Rules K) (h : List (Event K)) (doc : K.Doc) : Prop where
  borne : R.doc h doc
  held : doc ∈ R.base ∨ .put doc ∈ h

structure Inv (R : Rules K) (s : State K) : Prop where
  events : Always R.Lawful s.history
  disk : ∀ doc ∈ s.disk, Known R s.history doc
  tickets : ∀ doc ticket, (doc, ticket) ∈ s.tickets → Known R s.history doc
  jobs : ∀ payload, .created payload ∈ s.jobs → R.payload s.history payload
  actions : ∀ step value, (step, .created value) ∈ s.actions → R.value s.history value
  outcomes : ∀ step value, (step, .done (.returned value)) ∈ s.actions → R.value s.history value

def Grows (s s' : State K) : Prop := s.history <:+ s'.history

def logic (R : Rules K) : Logic (State K) (Res (K := K)) :=
  ⟨Inv R, Grows, Grows, fun s o r => answers s o r = true⟩

/-- From a history that begins with `h`, the task keeps the rules and ends in `Q` when it returns;
it raises only where `E` holds. -/
def RunsOr (R : Rules K) (E : Prop) (h : List (Event K)) (p : Task K α)
    (Q : α → List (Event K) → Prop) : Prop :=
  ∀ s, Inv R s → h <:+ s.history → p.Spec (logic R)
    (fun a s' => Inv R s' ∧ h <:+ s'.history ∧ Q a s'.history)
    (fun _ s' => E ∧ Inv R s' ∧ h <:+ s'.history) s

abbrev Runs (R : Rules K) (h : List (Event K)) (p : Task K α) (Q : α → List (Event K) → Prop) :
    Prop :=
  RunsOr R True h p Q

/-! ### The writes -/

section Writes

variable {R : Rules K} {s s' : State K} {h h' : List (Event K)}

theorem Known.suffix {doc : K.Doc} (hk : Known R h doc) (hs : h <:+ h') : Known R h' doc :=
  ⟨R.doc_suffix hk.borne hs, hk.held.imp_right fun hmem => hs.subset hmem⟩

theorem known_put {doc : K.Doc} (hdoc : R.doc h doc) : Known R (.put doc :: h) doc :=
  ⟨R.doc_suffix hdoc (List.suffix_cons _ _), .inr List.mem_cons_self⟩

theorem Inv.write (hi : Inv R s) (history : s'.history = s.history)
    (disk : ∀ doc ∈ s'.disk, Known R s.history doc)
    (tickets : ∀ doc ticket, (doc, ticket) ∈ s'.tickets → Known R s.history doc)
    (jobs : ∀ payload, .created payload ∈ s'.jobs → R.payload s.history payload)
    (actions : ∀ step value, (step, .created value) ∈ s'.actions → R.value s.history value)
    (outcomes : ∀ step value, (step, .done (.returned value)) ∈ s'.actions →
      R.value s.history value) : Inv R s' := by
  refine ⟨?_, ?_, ?_, ?_, ?_, ?_⟩ <;> rw [history]
  exacts [hi.events, disk, tickets, jobs, actions, outcomes]

theorem Inv.aside (hi : Inv R s) (history : s'.history = s.history) (disk : s'.disk = s.disk)
    (tickets : s'.tickets = s.tickets) (jobs : s'.jobs = s.jobs)
    (actions : s'.actions = s.actions) : Inv R s' := by
  refine hi.write history ?_ ?_ ?_ ?_ ?_
  · exact disk ▸ hi.disk
  · exact tickets ▸ hi.tickets
  · exact jobs ▸ hi.jobs
  · exact actions ▸ hi.actions
  · exact actions ▸ hi.outcomes

theorem Inv.event (hi : Inv R s) {e : Event K} (he : R.Lawful e s.history)
    (history : s'.history = e :: s.history) (disk : s'.disk = s.disk)
    (tickets : ∀ doc ticket, (doc, ticket) ∈ s'.tickets →
      (doc, ticket) ∈ s.tickets ∨ Known R s'.history doc)
    (jobs : s'.jobs = s.jobs) (actions : s'.actions = s.actions) : Inv R s' := by
  have hs : s.history <:+ s'.history := history ▸ List.suffix_cons e _
  refine ⟨history ▸ ⟨he, hi.events⟩, fun doc hdoc => ?_, fun doc ticket hticket => ?_,
    fun payload hjob => ?_, fun step value haction => ?_, fun step value haction => ?_⟩
  · exact (hi.disk doc (disk ▸ hdoc)).suffix hs
  · rcases tickets doc ticket hticket with hold | hnew
    · exact (hi.tickets doc ticket hold).suffix hs
    · exact hnew
  · exact R.payload_suffix (hi.jobs payload (jobs ▸ hjob)) hs
  · exact R.value_suffix (hi.actions step value (actions ▸ haction)) hs
  · exact R.value_suffix (hi.outcomes step value (actions ▸ haction)) hs

theorem Inv.mark (hi : Inv R s) {m : K.Mark} (he : R.mark s.history m) :
    Inv R (s.mark m) :=
  hi.event (e := .marked m) he rfl rfl (fun _ _ => .inl) rfl rfl

theorem Inv.submit (hi : Inv R s) {doc : K.Doc} (he : R.doc s.history doc) :
    Inv R (s.submit doc) := by
  refine hi.event (e := .put doc) he rfl rfl (fun doc' ticket hticket => ?_) rfl rfl
  rcases List.mem_append.mp hticket with hold | hnew
  · exact .inl hold
  · obtain ⟨rfl, -⟩ := Prod.mk.inj (List.mem_singleton.mp hnew)
    exact .inr (known_put he)

theorem Inv.create (hi : Inv R s) {payload : K.Payload} (hp : R.payload s.history payload) :
    Inv R (s.create payload) := by
  refine hi.write rfl hi.disk hi.tickets (fun payload' hjob => ?_) hi.actions hi.outcomes
  rcases List.mem_append.mp hjob with hold | hnew
  · exact hi.jobs payload' hold
  · obtain rfl := Stage.created.inj (List.mem_singleton.mp hnew)
    exact hp

theorem Inv.launch (hi : Inv R s) {context : ActionContext} {value : K.Value}
    (hv : R.value s.history value) : Inv R (s.launch context value) := by
  refine hi.write rfl hi.disk hi.tickets hi.jobs (fun step' value' haction => ?_)
    fun step' value' haction => ?_
  · rcases List.mem_append.mp haction with hold | hnew
    · exact hi.actions step' value' hold
    · obtain ⟨-, heq⟩ := Prod.mk.inj (List.mem_singleton.mp hnew)
      exact Stage.created.inj heq ▸ hv
  · rcases List.mem_append.mp haction with hold | hnew
    · exact hi.outcomes step' value' hold
    · cases (Prod.mk.inj (List.mem_singleton.mp hnew)).2

theorem Inv.setJob (hi : Inv R s) {n : Nat} {stage : Stage K.Payload Unit}
    (hstage : ∀ payload, stage ≠ .created payload) : Inv R (s.setJob n stage) := by
  refine hi.write rfl hi.disk hi.tickets (fun payload hjob => ?_) hi.actions hi.outcomes
  rcases List.mem_or_eq_of_mem_set hjob with hold | heq
  · exact hi.jobs payload hold
  · exact absurd heq.symm (hstage payload)

theorem Inv.setAction (hi : Inv R s) {n : Nat} {context : ActionContext}
    {stage : Stage K.Value (Called K.Value)} (hstage : ∀ value, stage ≠ .created value)
    (houtcome : ∀ value, stage = .done (.returned value) → R.value s.history value) :
    Inv R (s.setAction n context stage) := by
  refine hi.write rfl hi.disk hi.tickets hi.jobs (fun step' value haction => ?_)
    fun step' value haction => ?_
  · rcases List.mem_or_eq_of_mem_set haction with hold | heq
    · exact hi.actions step' value hold
    · exact absurd (Prod.mk.inj heq).2.symm (hstage value)
  · rcases List.mem_or_eq_of_mem_set haction with hold | heq
    · exact hi.outcomes step' value hold
    · exact houtcome value (Prod.mk.inj heq).2.symm

theorem Inv.world (hi : Inv R s) (w : Outside) : Inv R (world w s) ∧ Grows s (world w s) := by
  cases w with
  | clock now => exact ⟨hi.aside rfl rfl rfl rfl rfl, List.suffix_refl _⟩
  | cancel handle => exact ⟨hi.aside rfl rfl rfl rfl rfl, List.suffix_refl _⟩
  | flush n =>
    rw [Jobs.world]
    cases hn : s.tickets[n]? with
    | none => exact ⟨hi, List.suffix_refl _⟩
    | some entry =>
      have hput := hi.tickets entry.1 entry.2 (List.mem_of_getElem? hn)
      refine ⟨hi.write rfl (fun doc hdoc => ?_) (fun doc ticket hticket => ?_) hi.jobs hi.actions
        hi.outcomes, List.suffix_refl _⟩
      · rcases List.mem_cons.mp hdoc with rfl | hold
        · exact hput
        · exact hi.disk doc hold
      · rcases List.mem_or_eq_of_mem_set hticket with hold | heq
        · exact hi.tickets doc ticket hold
        · exact (Prod.mk.inj heq).1 ▸ hput
  | fail n =>
    rw [Jobs.world]
    cases hn : s.tickets[n]? with
    | none => exact ⟨hi, List.suffix_refl _⟩
    | some entry =>
      have hput := hi.tickets entry.1 entry.2 (List.mem_of_getElem? hn)
      refine ⟨hi.write rfl hi.disk (fun doc ticket hticket => ?_) hi.jobs hi.actions hi.outcomes,
        List.suffix_refl _⟩
      rcases List.mem_or_eq_of_mem_set hticket with hold | heq
      · exact hi.tickets doc ticket hold
      · exact (Prod.mk.inj heq).1 ▸ hput

end Writes

/-! ### The tasks -/

section Tasks

variable {R : Rules K} {E : Prop} {h : List (Event K)} {p : Task K α} {f : α → Task K β}
  {Q Q' : α → List (Event K) → Prop} {T : β → List (Event K) → Prop}

theorem runs_ret {a : α} (hQ : ∀ h', h <:+ h' → Q a h') : RunsOr R E h (.ret a) Q :=
  fun s hi hs => ⟨hi, hs, hQ s.history hs⟩

theorem runs_raise (hE : E) (e : Error) : RunsOr R E h (.raise e) Q :=
  fun _ hi hs => ⟨hE, hi, hs⟩

theorem RunsOr.mono (hp : RunsOr R E h p Q) (hQ : ∀ a h', h <:+ h' → Q a h' → Q' a h') :
    RunsOr R E h p Q' :=
  fun s hi hs => (hp s hi hs).mono (fun a _ hend => ⟨hend.1, hend.2.1, hQ a _ hend.2.1 hend.2.2⟩)
    fun _ _ hend => hend

theorem RunsOr.bind (hp : RunsOr R E h p Q)
    (hf : ∀ a h', h <:+ h' → Q a h' → RunsOr R E h' (f a) T) : RunsOr R E h (p.bind f) T := by
  intro s hi hs
  refine spec_bind.mpr ((hp s hi hs).mono (fun a s' hend => ?_) fun _ _ hend => hend)
  obtain ⟨hi', hs', hQ⟩ := hend
  refine (hf a s'.history hs' hQ s' hi' (List.suffix_refl _)).mono (fun b s'' hend => ?_)
    fun _ s'' hend => ?_
  · exact ⟨hend.1, hs'.trans hend.2.1, hend.2.2⟩
  · exact ⟨hend.1, hend.2.1, hs'.trans hend.2.2⟩

theorem RunsOr.observe {T : Except Error α → List (Event K) → Prop} (hp : Runs R h p Q)
    (hok : ∀ a h', Q a h' → T (.ok a) h') (herror : ∀ e h', h <:+ h' → T (.error e) h') :
    RunsOr R E h p.observe T :=
  fun s hi hs => spec_observe.mpr ((hp s hi hs).mono
    (fun a _ hend => ⟨hend.1, hend.2.1, hok a _ hend.2.2⟩)
    fun e _ hend => ⟨hend.2.1, hend.2.2, herror e _ hend.2.2⟩)

theorem RunsOr.handle {g : Error → Task K α} (hp : Runs R h p Q)
    (hg : ∀ e h', h <:+ h' → RunsOr R E h' (g e) Q) : RunsOr R E h (p.handle g) Q := by
  intro s hi hs
  refine spec_handle.mpr ((hp s hi hs).mono (fun _ _ hend => hend) fun e s' hend => ?_)
  obtain ⟨-, hi', hs'⟩ := hend
  refine (hg e s'.history hs' s' hi' (List.suffix_refl _)).mono (fun b s'' hend => ?_)
    fun _ s'' hend => ?_
  · exact ⟨hend.1, hs'.trans hend.2.1, hend.2.2⟩
  · exact ⟨hend.1, hend.2.1, hs'.trans hend.2.2⟩

theorem Runs.andFinally {cleanup : Task K Unit} (hp : Runs R h p Q)
    (hc : ∀ h', h <:+ h' → Runs R h' cleanup fun _ _ => True) :
    Runs R h (p.andFinally cleanup) fun _ _ => True := by
  refine (hp.observe (T := fun _ _ => True) (fun _ _ _ => trivial) fun _ _ _ => trivial).bind ?_
  refine fun r h' hs _ => (hc h' hs).bind fun _ h'' _ _ => ?_
  cases r with
  | ok a => exact runs_ret fun _ _ => trivial
  | error e => exact runs_raise trivial e

theorem runs_reading (g : State K → α) :
    RunsOr R E h (reading g) fun a h' => ∃ s, Inv R s ∧ s.history = h' ∧ g s = a :=
  fun s hi hs => ⟨hi, hs, s, hi, rfl, rfl⟩

theorem runs_modify {g : State K → State K} {P : List (Event K) → Prop}
    (hg : ∀ s, Inv R s → h <:+ s.history → Inv R (g s) ∧ Grows s (g s) ∧ P (g s).history) :
    RunsOr R E h (Proc.modify g) fun _ => P := by
  intro s hi hs
  obtain ⟨hi', hgrows, hP⟩ := hg s hi hs
  exact ⟨hgrows, hi', hi', hs.trans hgrows, hP⟩

theorem runs_aside {g : State K → State K} (history : ∀ s, (g s).history = s.history)
    (disk : ∀ s, (g s).disk = s.disk) (tickets : ∀ s, (g s).tickets = s.tickets)
    (jobs : ∀ s, (g s).jobs = s.jobs) (actions : ∀ s, (g s).actions = s.actions) :
    RunsOr R E h (Proc.modify g) fun _ _ => True :=
  runs_modify fun s hi _ => ⟨hi.aside (history s) (disk s) (tickets s) (jobs s) (actions s),
    by rw [Grows, history s], trivial⟩

theorem runs_cancel (handle : Handle) :
    RunsOr R E h (Proc.modify (State.cancel handle)) fun _ _ => True :=
  runs_aside (fun _ => rfl) (fun _ => rfl) (fun _ => rfl) (fun _ => rfl) fun _ => rfl

theorem runs_deliver (who : Handle) :
    RunsOr R E h (Proc.modify (State.deliver who)) fun _ _ => True :=
  runs_aside (fun _ => rfl) (fun _ => rfl) (fun _ => rfl) (fun _ => rfl) fun _ => rfl

theorem runs_require {c : Bool} {e : Error} :
    Runs R h (require c e : Task K Unit) fun _ _ => c = true :=
  fun _ hi hs => spec_require.mpr ⟨fun hc => ⟨hi, hs, hc⟩, fun _ => ⟨trivial, hi, hs⟩⟩

theorem runs_ofOption {e : Error} {found : Option α} :
    Runs R h (ofOption e found : Task K α) fun a _ => found = some a :=
  fun _ hi hs => spec_ofOption.mpr
    ⟨fun _ hfound => ⟨hi, hs, hfound⟩, fun _ => ⟨trivial, hi, hs⟩⟩

theorem runs_ofCalled (r : Called α) :
    Runs R h (ofCalled r : Task K α) fun a _ => r = .returned a := by
  cases r with
  | returned a => exact runs_ret fun _ _ => rfl
  | raised e => exact runs_raise trivial _

theorem runs_await (who : Handle) (w : Wait K) : Runs R h (await who w) fun _ _ => True := by
  intro s _ hs s' hi' hgrows r _
  cases r with
  | value a => exact ⟨hi', hs.trans hgrows, trivial⟩
  | cancelled =>
    exact ⟨List.suffix_refl _, hi'.aside rfl rfl rfl rfl rfl, trivial,
      hi'.aside rfl rfl rfl rfl rfl, hs.trans hgrows⟩

theorem runs_pause (who : Handle) : Runs R h (pause who) fun _ _ => True :=
  (runs_await who .pause).bind fun ended _ _ _ =>
    (runs_ofCalled ended).mono fun _ _ _ _ => trivial

theorem runs_attempt (who : Handle) : Runs R h (attempt who) fun _ _ => True := by
  refine (runs_await who .pause).bind fun ended _ _ _ => ?_
  split
  · exact runs_raise trivial _
  · exact runs_ret fun _ _ => trivial

theorem runs_mark {m : K.Mark} (he : ∀ h', h <:+ h' → R.mark h' m) :
    RunsOr R E h (mark m) fun _ h' => .marked m ∈ h' :=
  runs_modify fun _ hi hs => ⟨hi.mark (he _ hs), List.suffix_cons _ _, List.mem_cons_self⟩

theorem runs_fetch (who : Handle) (key : K.Key) :
    Runs R h (fetch who key) fun found h' => ∀ doc, found = some doc →
      Known R h' doc ∧ K.key doc = key := by
  refine (runs_await who .read).bind fun readable _ _ _ => ?_
  refine (runs_reading _).bind fun stored h1 _ hstored => ?_
  refine (runs_await who .thread).bind fun _ h2 hs _ => runs_ret fun h3 hs3 doc hdoc => ?_
  obtain ⟨s, hi, rfl, hfind⟩ := hstored
  have hfound : s.find key = some doc := by
    cases readable with
    | true => exact hfind.trans hdoc
    | false => cases hdoc
  have := K.sameKey
  exact ⟨(hi.disk doc (List.mem_of_find?_eq_some hfound)).suffix (hs.trans hs3),
    by simpa using List.find?_some hfound⟩

theorem runs_put (who : Handle) (doc : K.Doc) (he : ∀ h', h <:+ h' → R.doc h' doc) :
    Runs R h (put who doc) fun _ h' => Known R h' doc := by
  refine (runs_await who .thread).bind fun _ h1 hs1 _ => ?_
  refine (runs_reading _).bind fun ticket h2 hs2 _ => ?_
  have he' : ∀ h', h2 <:+ h' → R.doc h' doc := fun h' hs => he h' (hs1.trans (hs2.trans hs))
  refine (runs_modify (P := fun h' => Known R h' doc) fun s hi hs => ⟨hi.submit (he' _ hs),
    List.suffix_cons _ _, known_put (he' _ hs)⟩).bind fun _ h3 _ hput => ?_
  refine (runs_await who (.write ticket)).bind fun ok h4 hs4 _ => ?_
  exact runs_require.mono fun _ h5 hs5 _ => hput.suffix (hs4.trans hs5)

theorem runs_ofReturned (r : Returned α) : Runs R h (ofReturned r : Task K α) fun _ _ => True := by
  cases r with
  | value a => exact runs_ret fun _ _ => trivial
  | failed | raised => exact runs_raise trivial _

theorem runs_toActionError (e : Error) : Runs R h (toActionError e) Q := by
  cases e <;> exact runs_raise trivial _

theorem runs_toServiceError (e : Error) : Runs R h (toServiceError e) Q := by
  cases e <;> exact runs_raise trivial _

theorem runs_whenSome {found : Option α} {f : α → Task K Unit}
    (hf : ∀ a, found = some a → Runs R h (f a) fun _ _ => True) :
    Runs R h (whenSome found f) fun _ _ => True := by
  cases found with
  | none => exact runs_ret fun _ _ => trivial
  | some a => exact hf a rfl

theorem runs_attend {next : Task K α} {handle : α → Task K Unit}
    (hnext : ∀ h', h <:+ h' → Runs R h' next fun _ _ => True)
    (hhandle : ∀ a h', h <:+ h' → Runs R h' (handle a) fun _ _ => True) (n : Nat) :
    Runs R h (attend next handle n) fun _ _ => True := by
  induction n generalizing h with
  | zero => exact runs_ret fun _ _ => trivial
  | succ n ih =>
    refine (hnext h (List.suffix_refl _)).bind fun message h1 hs1 _ => ?_
    refine (hhandle message h1 hs1).bind fun _ h2 hs2 _ => ?_
    exact ih (fun h' hs => hnext h' (hs1.trans (hs2.trans hs)))
      fun a h' hs => hhandle a h' (hs1.trans (hs2.trans hs))

theorem runs_runningTask (who : Handle) (id : String) :
    Runs R h (runningTask who id) fun _ _ => True :=
  (runs_await who .thread).bind fun _ _ _ _ => (runs_reading _).mono fun _ _ _ _ => trivial

theorem runs_cancelAll (jobs : List Nat) : Runs R h (cancelAll jobs) fun _ _ => True := by
  induction jobs generalizing h with
  | nil => exact runs_ret fun _ _ => trivial
  | cons n rest ih =>
    refine (runs_reading _).bind fun done h1 _ _ => ?_
    have hone : Runs R h1 (if done = true then pure () else Proc.modify (State.cancel (.job n)))
        fun _ _ => True := by
      split
      · exact runs_ret fun _ _ => trivial
      · exact runs_cancel _
    exact hone.bind fun _ _ _ _ => ih

theorem runs_shutdown (who : Handle) : Runs R h (shutdown who) fun _ _ => True := by
  refine (runs_await who .thread).bind fun _ h1 _ _ => ?_
  refine (runs_reading _).bind fun jobs h2 _ _ => ?_
  refine (runs_cancelAll jobs).bind fun _ h3 _ _ => ?_
  split
  · exact runs_ret fun _ _ => trivial
  · exact runs_await who _

end Tasks

/-! ### The engine -/

section Engine

variable {R : Rules K} {h : List (Event K)}

/-- From `h` on, the input factories of a workflow build dictionaries that the history bears out,
from outputs that it bears out. -/
def CallsIn (R : Rules K) (h : List (Event K)) (calls : Calls K.Value) : Prop :=
  ∀ h' step outputs value, h <:+ h' → OutputsIn (R.value h') outputs →
    calls.inputs step outputs = .returned value → R.value h' value

theorem stateOf_in {id : String} {state : Outputs K.Value} {value : K.Value}
    (hstate : OutputsIn (R.value h) state) (heq : stateOf id state = .returned value) :
    R.value h value := by
  rw [stateOf] at heq
  cases hlookup : state.lookup id with
  | none => simp [hlookup] at heq
  | some value' =>
    simp only [hlookup, Called.returned.injEq] at heq
    subst heq
    obtain ⟨l, l', hsplit, -⟩ := List.lookup_eq_some_iff.mp hlookup
    exact hstate (id, value') (hsplit ▸ List.mem_append_right _ List.mem_cons_self)

theorem callsIn_none (R : Rules K) (h : List (Event K)) : CallsIn R h .none :=
  fun _ _ _ _ _ _ heq => by cases heq

theorem runs_watch (who : Handle) (n : Nat) :
    Runs R h (watch who n) fun ended h' => ∀ value, ended = .finished (.returned value) →
      R.value h' value := by
  refine (runs_await who (.action n)).bind fun watched h1 _ _ => ?_
  cases watched with
  | finished =>
    refine (runs_reading _).bind fun found h2 _ hfound => ?_
    obtain ⟨s, hi, rfl, rfl⟩ := hfound
    split
    · next step outcome hn =>
      refine runs_ret fun h3 hs3 value heq => ?_
      obtain rfl := Ended.finished.inj heq
      exact R.value_suffix (hi.outcomes step value (List.mem_of_getElem? hn)) hs3
    · exact runs_ret fun _ _ _ h => by cases h
  | timedOut | interrupted =>
    refine (runs_cancel _).bind fun _ h2 _ _ => ?_
    exact (runs_await who (.join n)).bind fun _ _ _ _ => runs_ret fun _ _ _ h => by cases h

theorem runs_runAction (who : Handle) (context : ActionContext) {inputs : K.Value}
    (hv : R.value h inputs) :
    RunsOr R False h (runAction who context inputs) fun ended h' =>
      ∀ value, ended = .finished (.returned value) → R.value h' value := by
  refine (runs_reading _).bind fun n h1 hs1 _ => ?_
  refine (runs_modify (P := fun _ => True) fun s hi hs =>
    ⟨hi.launch (R.value_suffix hv (hs1.trans hs)), List.suffix_refl _, trivial⟩).bind
      fun _ h2 _ _ => ?_
  refine ((runs_watch who n).observe (T := fun ended h' => ∀ value,
    ended = .ok (.finished (.returned value)) → R.value h' value)
    (fun _ _ hended value heq => hended value (Except.ok.inj heq)) fun _ _ _ _ h => by cases h).bind
      fun ended h3 _ hended => ?_
  refine ((runs_await who .thread).observe (T := fun _ _ => True) (fun _ _ _ => trivial)
    fun _ _ _ => trivial).bind fun closed h4 hs4 _ => ?_
  split
  · exact runs_ret fun h5 hs5 value heq =>
      R.value_suffix (hended value (congrArg Except.ok heq)) (hs4.trans hs5)
  · exact runs_ret fun _ _ _ h => by cases h

theorem runs_enginePause (who : Handle) :
    RunsOr R False h (enginePause who) fun _ _ => True := by
  refine ((runs_pause who).observe (T := fun _ _ => True) (fun _ _ _ => trivial)
    fun _ _ _ => trivial).bind fun ended _ _ _ => ?_
  split <;> exact runs_ret fun _ _ => trivial

theorem runs_carry (who : Handle) {calls : Calls K.Value} {executionId : String}
    (hcalls : CallsIn R h calls) (o : Workflows.Op K.Value) (hgiven : Given (R.value h) o) :
    RunsOr R False h (carry who calls executionId o) fun r h' => Gives (R.value h') o r := by
  cases o with
  | append | notify | gate | sleep | compensate =>
    exact (runs_enginePause who).mono fun _ _ _ _ => trivial
  | condition | result | postcheck => exact runs_ret fun _ _ => trivial
  | join => exact runs_ret fun _ _ => trivial
  | inputs site step state =>
    refine runs_ret fun h' hs => ?_
    cases hinputs : calls.inputs step.id state with
    | raised => trivial
    | returned value =>
      exact hcalls h' step.id state value hs
        (fun entry hentry => R.value_suffix (hgiven entry hentry) hs) hinputs
  | action site owner step attempt inputs =>
    refine (runs_runAction who _ hgiven).mono fun ended h' _ hended => ?_
    cases ended with
    | finished outcome =>
      cases outcome with
      | returned value => exact hended value rfl
      | raised => trivial
    | timedOut | interrupted | stopped => trivial

theorem runs_interp {who : Handle} {calls : Calls K.Value} {p : Workflows.Task K.Value α}
    {executionId : String} (hcalls : CallsIn R h calls) (hp : ∀ Φ, Passes Φ p fun _ _ => True) :
    Runs R h (p.interp State.engine State.setEngine (carry who calls executionId) .exc)
      fun _ _ => True := by
  intro s hi hs
  refine (Proc.Obeys.interp_spec (R := fun Φ s' => Inv R s' ∧ h <:+ s'.history ∧
    ∀ value, Φ value → R.value s'.history value) (hp (R.value s.history))
    ⟨hi, hs, fun _ => id⟩ ?_ ?_).mono ?_ ?_
  · rintro Φ s1 engine ⟨hi1, hs1, hΦ⟩
    have hi2 : Inv R (s1.setEngine engine) := hi1.aside rfl rfl rfl rfl rfl
    exact ⟨List.suffix_refl _, hi2, hi2, hs1, hΦ⟩
  · rintro Φ o s1 hgiven ⟨hi1, hs1, hΦ⟩
    have hcalls' : CallsIn R s1.history calls := fun h' step outputs value hs' =>
      hcalls h' step outputs value (hs1.trans hs')
    refine (runs_carry who hcalls' o (hgiven.imp hΦ) s1 hi1 (List.suffix_refl _)).mono ?_ ?_
    · rintro r s2 ⟨hi2, hs2, hgives⟩
      exact ⟨R.value s2.history, ⟨fun value hvalue => R.value_suffix (hΦ value hvalue) hs2, hgives⟩,
        hi2, hs1.trans hs2, fun _ => id⟩
    · rintro e s2 ⟨hfalse, -⟩
      exact hfalse
  · rintro a s1 ⟨Φ, -, hi1, hs1, -⟩
    exact ⟨hi1, hs1, trivial⟩
  · rintro e s1 ⟨e', Φ, -, -, hi1, hs1, -⟩
    exact ⟨trivial, hi1, hs1⟩

variable (cfg : Workflows.Config K.Value) (task : Nat) (who : Handle) (flow : Flow K.Value)

theorem runs_executeCapability {refused : Option Exc}
    (hcalls : refused = none → CallsIn R h flow.toCalls)
    (validates : K.Value → Bool) (executionId : Option String) (uuid : String) :
    Runs R h (executeCapability cfg task who refused flow validates executionId uuid)
      fun _ _ => True := by
  refine (runs_ofCalled _).bind fun _ h1 hs1 hpassed => ?_
  have hallowed : refused = none := by
    cases refused with
    | none => rfl
    | some e => cases hpassed
  refine (runs_interp (fun h' step outputs value hs' => hcalls hallowed h' step outputs value
    (hs1.trans hs')) fun Φ => passes_execute cfg task flow.definition executionId uuid).bind
    fun execution _ _ _ => ?_
  exact runs_require.bind fun _ _ _ _ => runs_ret fun _ _ => trivial

theorem runs_cancelWorkflow (executionId : String) :
    Runs R h (cancelWorkflow task who executionId) fun _ _ => True :=
  runs_interp (callsIn_none R h) fun _ => passes_control task .cancel executionId

end Engine

/-! ### Every run -/

/-- Every task of the service keeps the rules. -/
structure Sound (R : Rules K) (S : Service K) : Prop where
  serve : ∀ task request h, Runs R h (S.serve task request) fun _ _ => True
  job : ∀ task n payload h, R.payload h payload →
    Runs R h (S.job task n payload) fun _ _ => True
  action : ∀ n context value h, R.value h value →
    Runs R h (S.action n context value) fun output h' => R.value h' output

section Service

variable {R : Rules K} {S : Service K}

theorem runs_orCancelled {h : List (Event K)} {Q : α → List (Event K) → Prop} (handle : Handle)
    {body : Task K α} (hbody : ∀ h', h <:+ h' → Runs R h' body Q) :
    Runs R h (orCancelled handle body) Q := by
  refine (runs_reading _).bind fun flagged h1 hs1 _ => ?_
  split
  · exact (runs_deliver handle).bind fun _ _ _ _ => runs_raise trivial _
  · exact hbody h1 hs1

theorem Sound.runJob (hS : Sound R S) {h : List (Event K)} {payload : K.Payload}
    (hp : R.payload h payload) (task n : Nat) :
    Runs R h (runJob S task n payload) fun _ _ => True := by
  have hset : ∀ {h'} (stage : Stage K.Payload Unit), (∀ payload, stage ≠ .created payload) →
      Runs R h' (Proc.modify (State.setJob n stage)) fun _ _ => True := fun stage hstage =>
    runs_modify fun _ hi _ => ⟨hi.setJob hstage, List.suffix_refl _, trivial⟩
  refine (hset .entered fun _ h => by cases h).bind fun _ h1 hs1 _ => ?_
  refine ((runs_orCancelled (.job n) fun h2 hs2 =>
    hS.job task n payload h2 (R.payload_suffix hp (hs1.trans hs2))).observe (T := fun _ _ => True)
    (fun _ _ _ => trivial) fun _ _ _ => trivial).bind fun _ h3 _ _ => ?_
  exact hset (.done ()) fun _ h => by cases h

theorem Sound.runActionTask (hS : Sound R S) {h : List (Event K)} {value : K.Value}
    (hv : R.value h value) (n : Nat) (context : ActionContext) :
    Runs R h (runActionTask S n context value) fun _ _ => True := by
  refine (runs_modify (P := fun _ => True) fun _ hi _ =>
    ⟨hi.setAction (fun _ h => by cases h) (fun _ h => by cases h), List.suffix_refl _, trivial⟩).bind
      fun _ h1 hs1 _ => ?_
  refine ((runs_orCancelled (.action n) fun h2 hs2 =>
    hS.action n context value h2 (R.value_suffix hv (hs1.trans hs2))).observe
    (T := fun outcome h' => ∀ output, outcome = .ok output → R.value h' output)
    (fun _ _ houtput _ heq => Except.ok.inj heq ▸ houtput) fun _ _ _ _ h => by cases h).bind
      fun outcome h3 _ houtcome => ?_
  refine runs_modify fun _ hi hs => ⟨hi.setAction (fun _ h => by cases h) fun output heq => ?_,
    List.suffix_refl _, trivial⟩
  cases outcome with
  | error e => cases heq
  | ok output' =>
    obtain rfl := Called.returned.inj (Stage.done.inj heq)
    exact R.value_suffix (houtcome output' rfl) hs

theorem Sound.handler (hS : Sound R S) (task : Nat) (t : Request K) :
    Runs R [] (handler S task t) fun _ _ => True := by
  cases t with
  | call request => exact (hS.serve task request []).bind fun _ _ _ _ => runs_ret fun _ _ => trivial
  | job n =>
    refine (runs_reading _).bind fun found h1 _ hfound => ?_
    obtain ⟨s, hi, rfl, rfl⟩ := hfound
    split
    · next payload hn =>
      exact (hS.runJob (hi.jobs payload (List.mem_of_getElem? hn)) task n).bind
        fun _ _ _ _ => runs_ret fun _ _ => trivial
    · exact runs_ret fun _ _ => trivial
  | action n =>
    refine (runs_reading _).bind fun found h1 _ hfound => ?_
    obtain ⟨s, hi, rfl, rfl⟩ := hfound
    split
    · next context value hn =>
      exact (hS.runActionTask (hi.actions context value (List.mem_of_getElem? hn)) n context).bind
        fun _ _ _ _ => runs_ret fun _ _ => trivial
    · exact runs_ret fun _ _ => trivial

def Sound.contract (hS : Sound R S) : Contract (system S) where
  inv := Inv R
  rely _ := Grows
  guar _ := Grows
  fresh _ _ := True
  post _ _ _ _ := True
  postE _ _ _ _ := True
  refl _ s := List.suffix_refl s.history
  trans _ _ _ _ := List.IsSuffix.trans
  guar_rely _ _ _ _ _ h := h
  fresh_rely _ _ _ _ _ := trivial
  post_rely _ _ _ _ _ _ _ := trivial
  postE_rely _ _ _ _ _ _ _ := trivial
  world _ w hi _ := ⟨(hi.world w).1, fun _ => (hi.world w).2⟩
  handler j t s hi _ _ :=
    (hS.handler j t s hi (List.nil_suffix)).mono (fun _ _ _ => trivial) fun _ _ _ => trivial

theorem inv_start (R : Rules K) (now : DateTime) : Inv R (State.start now R.base) where
  events := trivial
  disk doc hdoc := ⟨R.doc_base doc hdoc, .inl hdoc⟩
  tickets _ _ h := absurd h List.not_mem_nil
  jobs _ h := absurd h List.not_mem_nil
  actions _ _ h := absurd h List.not_mem_nil
  outcomes _ _ h := absurd h List.not_mem_nil

theorem Sound.always (hS : Sound R S) {now : DateTime} {p : Tasks K}
    (reach : (system S).Reachable (State.start now R.base) p) : Always R.Lawful p.state.history :=
  (hS.contract.sound (inv_start R now) (fun _ => trivial) reach).inv.events

end Service

end Ares.Jobs
