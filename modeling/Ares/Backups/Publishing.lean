import Ares.Backups.Drift
import Ares.Coop.Apart

/-! The publication of a backup: which directories are there when a copy ends and the threads of its
cancelled calls have ended, and by which exception it ended.  The handlers of `create_backup` remove the
partial directory for three kinds of exceptions, and nothing takes the final one back. -/

namespace Ares.Backups

open Coop Data

/-! ### The site of a copy -/

/-- When a call acts: never, before its caller goes on, or after all other calls, as the thread of a
cancelled call may. -/
inductive Moment where
  | never | now | later
  deriving DecidableEq

/-- A call with its answer, and when it has its effect. -/
structure Step where
  op : Op
  answer : Res op
  acts : Moment

/-- The paths that are there, and the calls so far. -/
structure Site where
  there : Path → Bool
  log : List Step

/-- What is outside of the tools, by the calls so far. -/
structure Outside where
  answer : List Step → (o : Op) → Res o
  /-- When a call that raised acts: a thread goes on when its caller is cancelled. -/
  acts : List Step → Op → Moment

def succeeded : (o : Op) → Res o → Bool
  | .lock, r | .thread, r => r.isOk
  | .append _, r => r = .acked
  | .call _, r => r.isOk

def moved (there : Path → Bool) (source target q : Path) : Bool :=
  match below target q with
  | some rest => there (source ++ rest)
  | none => there q && !source.isPrefixOf q

def made (there : Path → Bool) : Op → Path → Bool
  | .call (.mkdir path _ parents _), q =>
    there q || if parents then q.isPrefixOf path else q = path
  | .call (.create path), q | .call (.writeNew path _), q => there q || q = path
  | .call (.replace source target), q => moved there source target q
  | .call (.removePartial path), q => there q && !path.isPrefixOf q
  | _, q => there q

def Site.next (m : Site) (o : Op) (r : Res o) (acts : Moment) : Site where
  there := if acts = .now then made m.there o else m.there
  log := ⟨o, r, acts⟩ :: m.log

def possible (there : Path → Bool) : Op → Bool
  | .call (.mkdir path _ parents _) => parents || there path.dropLast
  | .call (.create path) | .call (.writeNew path _) => there path.dropLast
  | .call (.replace source _) => there source
  | _ => true

def landed (there : Path → Bool) (o : Op) : Path → Bool :=
  if possible there o then made there o else there

/-- What is there when every thread has ended. -/
def settled (there : Path → Bool) : List Step → Path → Bool
  | [] => there
  | st :: past => if st.acts = .later then landed (settled there past) st.op else settled there past

def Site.settled (m : Site) : Path → Bool := Backups.settled m.there m.log

/-- The calls of the copy that write in a thread.  The removal of the partial directory is the last
call of all: before or after it is what the moments of the others say. -/
def inThread : Op → Bool
  | .call (.mkdir _ _ _ _) | .call (.writeNew _ _) | .call (.replace _ _) => true
  | _ => false

namespace Outside

variable (w : Outside)

/-- `_path_exists_or_symlink` answers with what is there. -/
def reply (m : Site) : (o : Op) → Res o
  | .call (.lexists path) => (w.answer m.log (.call (.lexists path))).map fun _ => m.there path
  | o => w.answer m.log o

/-- A call that went well has acted, and one without a thread of its own acts at once or never. -/
def moment (m : Site) (o : Op) : Moment :=
  if succeeded o (w.reply m o) then .now
  else if w.acts m.log o = .later && !inThread o then .never else w.acts m.log o

def server : Server Site Res := fun o m => (w.reply m o, m.next o (w.reply m o) (w.moment m o))

end Outside

/-! ### What a failure was -/

/-- What the reads of the open source file will raise, while it is copied. -/
def pendingRead : List Step → Option Error
  | ⟨.call (.openSource _), .ok (_, _, failure), _⟩ :: _ => failure
  | ⟨.call (.create _), _, _⟩ :: past | ⟨.call (.write _ _), _, _⟩ :: past
  | ⟨.call .send, _, _⟩ :: past => pendingRead past
  | _ => none

def walkFailure : List Step → Option Error
  | ⟨.call (.walkCopyEntries _ _ _), .ok (_, failure), _⟩ :: _ => failure
  | _ :: past => walkFailure past
  | [] => none

/-- The exception of outside that ended the copy: that of the last call, or the bounds of an entry, or
what ended the reads of a file or the walk.  Where there is none the tools have refused. -/
def cause : List Step → Option Error
  | ⟨.call (.removePartial _), _, _⟩ :: past => cause past
  | ⟨.call _, .error e, _⟩ :: _ => some e
  | ⟨.call (.mkdir _ _ _ _), .ok _, _⟩ :: _ | ⟨.call (.finish _ _), .ok _, _⟩ :: _ => some .value
  | ⟨.call (.create _), .ok _, _⟩ :: past => pendingRead past
  | ⟨.call .send, .ok _, _⟩ :: past => (pendingRead past).or (walkFailure past)
  | ⟨.call (.walkCopyEntries _ _ _), .ok (_, failure), _⟩ :: _ => failure
  | _ => none

/-- One of the handlers of `create_backup` takes it. -/
def Error.handled : Error → Bool
  | cancelled | tool _ | os | permission => true
  | audit | value | other => false

/-! ### Publication -/

def aresRootOf (plan : BackupPlan) : Path := (components plan.destination.rootPath).join "ARES"

def partialOf (plan : BackupPlan) : Path := (aresRootOf plan).join (".partial-" ++ plan.backupId)

def finalOf (plan : BackupPlan) : Path := components plan.destination.backupPath

/-- The destination is where `build_plan` puts it. -/
structure Destined (plan : BackupPlan) : Prop where
  named : Named plan.backupId
  path : plan.destination.backupPath = ((aresRootOf plan).join plan.backupId).str

/-- The partial directory has been made. -/
def Prepared (plan : BackupPlan) (log : List Step) : Prop :=
  ∃ st ∈ log, st.op = .call (.mkdir (partialOf plan) 0o700 false false) ∧
    succeeded st.op st.answer = true

/-- The backup has been moved to its final place. -/
def Renamed (plan : BackupPlan) (log : List Step) : Prop :=
  ∃ st ∈ log, st.op = .call (.replace (partialOf plan) (finalOf plan)) ∧ st.acts = .now

/-- Every removal of the partial directory has removed it. -/
def RemovalWorks (log : List Step) : Prop :=
  ∀ st ∈ log, ∀ path, st.op = .call (.removePartial path) → st.acts = .now

/-- The thread of a cancelled `mkdir(parents=True)` makes the partial directory again. -/
def Recreated (plan : BackupPlan) (log : List Step) : Prop :=
  ∃ st ∈ log, st.acts = .later ∧ ∃ path mode existOk,
    st.op = .call (.mkdir path mode true existOk) ∧ partialOf plan <+: path

/-- A backup that is returned is there and nothing else is; one that fails leaves nothing. -/
def AllOrNothing (plan : BackupPlan) (m : Site) : Except Error BackupManifest → Prop
  | .ok _ => m.settled (finalOf plan) = true ∧ m.settled (partialOf plan) = false
  | .error _ => m.settled (partialOf plan) = false ∧ m.settled (finalOf plan) = false

theorem partial_ne (id : String) : ".partial-" ++ id ≠ id := by
  intro heq
  have hlength := congrArg String.length heq
  simp [String.length_append] at hlength

section Paths

variable {plan : BackupPlan} (h : Destined plan)
include h

theorem Destined.final_eq : finalOf plan = aresRootOf plan ++ [plan.backupId] := by
  have hnamed : ∀ name ∈ aresRootOf plan ++ [plan.backupId], Named name := by
    intro name hname
    have hares : Named "ARES" := by decide
    rw [aresRootOf, join_name hares] at hname
    simp only [List.mem_append, List.mem_singleton] at hname
    rcases hname with (hroot | rfl) | rfl
    · exact named_components _ name hroot
    · exact hares
    · exact h.named
  rw [finalOf, h.path, join_name h.named, components_str hnamed]

theorem Destined.partial_eq : partialOf plan = aresRootOf plan ++ [".partial-" ++ plan.backupId] :=
  join_name (partial_named h.named) _

theorem Destined.apart (rel : Path) : ¬finalOf plan <+: partialOf plan ++ rel := by
  rw [h.final_eq, h.partial_eq, List.append_assoc, List.prefix_append_right_inj]
  intro hpre
  exact partial_ne plan.backupId (List.cons_prefix_cons.mp hpre).1.symm

theorem Destined.final_not_below : ¬partialOf plan <+: finalOf plan := by
  rw [h.final_eq, h.partial_eq, List.prefix_append_right_inj]
  intro hpre
  exact partial_ne plan.backupId (List.cons_prefix_cons.mp hpre).1

end Paths

/-! ### Phases of a copy -/

def Inner (plan : BackupPlan) : Op → Prop
  | .call (.mkdir path _ parents _) => parents = true ∧ ¬finalOf plan <+: path
  | .call (.create path) => path ≠ finalOf plan
  | .call (.writeNew path _) => path ≠ finalOf plan ∧ path.dropLast = partialOf plan
  | .call (.replace _ _) | .call (.removePartial _) => False
  | _ => True

theorem made_mkdir (there : Path → Bool) {final path : Path} (h : ¬final <+: path) (mode : Nat)
    (parents existOk : Bool) :
    made there (.call (.mkdir path mode parents existOk)) final = there final := by
  have hbelow : final.isPrefixOf path = false :=
    Bool.eq_false_iff.mpr fun hpre => h (List.isPrefixOf_iff_prefix.mp hpre)
  have hne : final ≠ path := by
    rintro rfl
    exact h (List.prefix_refl _)
  cases parents <;> simp [made, hbelow, hne]

theorem made_of_inner (there : Path → Bool) {plan : BackupPlan} {o : Op} (ho : Inner plan o) :
    (∀ q, there q = true → made there o q = true) ∧
      made there o (finalOf plan) = there (finalOf plan) := by
  cases o with
  | lock | thread | append => exact ⟨fun _ h => h, rfl⟩
  | call c =>
    cases c with
    | mkdir path mode parents existOk =>
      exact ⟨fun q h => by simp [made, h], made_mkdir there ho.2 mode parents existOk⟩
    | create path =>
      have hne : finalOf plan ≠ path := fun heq => ho heq.symm
      exact ⟨fun q h => by simp [made, h], by simp [made, hne]⟩
    | writeNew path content =>
      have hne : finalOf plan ≠ path := fun heq => ho.1 heq.symm
      exact ⟨fun q h => by simp [made, h], by simp [made, hne]⟩
    | replace | removePartial => exact ho.elim
    | _ => exact ⟨fun _ h => h, rfl⟩

/-! ### Threads that have not ended -/

/-- No thread of a cancelled call is left. -/
def Calm (log : List Step) : Prop := ∀ st ∈ log, st.acts ≠ .later

theorem Calm.settled {log : List Step} (h : Calm log) (there : Path → Bool) :
    settled there log = there := by
  induction log with
  | nil => rfl
  | cons st past ih =>
    rw [Backups.settled, if_neg (h st List.mem_cons_self)]
    exact ih fun st hst => h st (List.mem_cons_of_mem _ hst)

theorem Calm.not_recreated {plan : BackupPlan} {log : List Step} (h : Calm log) :
    ¬Recreated plan log := by
  rintro ⟨st, hst, hacts, -⟩
  exact h st hst hacts

def Pending (plan : BackupPlan) (log : List Step) : Prop :=
  Calm log ∨ ∃ st past, log = st :: past ∧ Calm past ∧ st.acts = .later ∧ inThread st.op = true ∧
    (Inner plan st.op ∨ st.op = .call (.replace (partialOf plan) (finalOf plan)))

section Phases

variable {w : Outside} {plan : BackupPlan} {walk : Option Error} {σ : Type} {m : Site} {o : Op}
  {c : Call} {acts : Moment}

/-- The copy is under way, or has ended with an exception. -/
structure Halted (plan : BackupPlan) (m : Site) : Prop where
  started : m.there (partialOf plan) = true
  unpublished : m.there (finalOf plan) = false
  unrenamed : ¬Renamed plan m.log
  pending : Pending plan m.log

/-- The copy is under way. -/
structure Filling (plan : BackupPlan) (m : Site) : Prop extends Halted plan m where
  calm : Calm m.log

/-- The backup has been moved. -/
structure Moved (plan : BackupPlan) (m : Site) : Prop where
  published : m.there (finalOf plan) = true
  gone : m.there (partialOf plan) = false
  renamed : Renamed plan m.log
  calm : Calm m.log

def Raised (e : Error) (m : Site) : Prop := (cause m.log).all Error.handled = e.handled

def Failed (plan : BackupPlan) (e : Error) (m : Site) : Prop :=
  (Halted plan m ∨ Moved plan m) ∧ Raised e m

/-- Inside of the copy of an item. -/
structure Inside (plan : BackupPlan) (walk : Option Error) (m : Site) : Prop where
  filling : Filling plan m
  walked : walkFailure m.log = walk

/-- Between the copies of two items. -/
structure Between (plan : BackupPlan) (walk : Option Error) (m : Site) : Prop extends
    Inside plan walk m where
  read : pendingRead m.log = none
  cause : cause m.log = walk

/-- Between the blocks of a file, whose reads end with `failure`. -/
structure Reading (plan : BackupPlan) (walk failure : Option Error) (m : Site) : Prop extends
    Inside plan walk m where
  read : pendingRead m.log = failure
  cause : ∀ e, failure = some e → cause m.log = some e

/-- A file or a directory is there, and its entry is to be made. -/
structure Copied (plan : BackupPlan) (walk : Option Error) (m : Site) : Prop extends
    Inside plan walk m where
  read : pendingRead m.log = none
  cause : cause m.log = some .value

variable {r : Res o}

theorem renamed_next (ho : o ≠ .call (.replace (partialOf plan) (finalOf plan))) :
    Renamed plan (m.next o r acts).log ↔ Renamed plan m.log := by
  refine (List.exists_mem_cons_iff _ _ _).trans ⟨?_, .inr⟩
  rintro (hnow | hpast)
  · exact absurd hnow.1 ho
  · exact hpast

theorem calm_next (h : Calm m.log) (hacts : acts ≠ .later) :
    Calm (m.next o r acts).log := by
  intro st hst
  rcases List.mem_cons.mp hst with rfl | hst
  · exact hacts
  · exact h st hst

theorem Filling.halted (h : Filling plan m) (ho : Inner plan o)
    (hlate : acts = .later → inThread o = true) : Halted plan (m.next o r acts) := by
  obtain ⟨hgrows, hfinal⟩ := made_of_inner m.there ho
  refine ⟨?_, ?_, ?_, ?_⟩
  · change (if acts = .now then made m.there o else m.there) _ = _
    split
    · exact hgrows _ h.started
    · exact h.started
  · change (if acts = .now then made m.there o else m.there) _ = _
    split
    · exact hfinal.trans h.unpublished
    · exact h.unpublished
  · rw [renamed_next (by rintro rfl; exact ho.elim)]
    exact h.unrenamed
  · by_cases hacts : acts = .later
    · exact .inr ⟨_, _, rfl, h.calm, hacts, hlate hacts, .inl ho⟩
    · exact .inl (calm_next h.calm hacts)

theorem Filling.after (h : Filling plan m) (ho : Inner plan o) (hacts : acts ≠ .later) :
    Filling plan (m.next o r acts) :=
  ⟨h.halted ho fun hlate => absurd hlate hacts, calm_next h.calm hacts⟩

theorem Filling.next (h : Filling plan m) (ho : Inner plan o) :
    Filling plan (m.next o r .now) :=
  h.after ho (by decide)

theorem walkFailure_next (ho : ∀ root deviceId policy,
    o ≠ .call (.walkCopyEntries root deviceId policy)) :
    walkFailure (m.next o r acts).log = walkFailure m.log := by
  rw [Site.next, walkFailure.eq_2]
  rintro root deviceId policy items failure acts' heq
  injection heq with hop
  exact ho _ _ _ hop

theorem Inside.next (h : Inside plan walk m) (ho : Inner plan o)
    (hwalk : ∀ root deviceId policy, o ≠ .call (.walkCopyEntries root deviceId policy)) :
    Inside plan walk (m.next o r .now) :=
  ⟨h.filling.next ho, (walkFailure_next hwalk).trans h.walked⟩

theorem cause_error {e : Error} (hc : ∀ path, c ≠ .removePartial path) :
    cause (m.next (.call c) (.error e) acts).log = some e := by
  cases c with
  | removePartial path => exact absurd rfl (hc path)
  | _ => rfl

theorem Filling.failed {e : Error} (h : Filling plan m) (ho : Inner plan (.call c))
    (hlate : acts = .later → inThread (.call c) = true) :
    Failed plan e (m.next (.call c) (.error e) acts) := by
  refine ⟨.inl (h.halted ho hlate), ?_⟩
  rw [Raised, cause_error (by rintro path rfl; exact ho.elim)]
  rfl

theorem Filling.refused {code : String} (h : Filling plan m) (hcause : cause m.log = none) :
    Failed plan (.tool code) m := by
  refine ⟨.inl h.toHalted, ?_⟩
  rw [Raised, hcause]
  rfl

theorem Filling.raised {e : Error} (h : Filling plan m) (hcause : cause m.log = some e) :
    Failed plan e m := by
  refine ⟨.inl h.toHalted, ?_⟩
  rw [Raised, hcause]
  rfl

theorem inThread_of_moment (h : w.moment m o = .later) : inThread o = true := by
  rw [Outside.moment] at h
  split at h
  · cases h
  · split at h
    · cases h
    · next hnot =>
      rw [h] at hnot
      simpa using hnot

theorem obeys_attempt {Q : c.Answer → Site → Prop} {E : Error → Site → Prop}
    (hok : ∀ a, w.reply m (.call c) = .ok a → Q a (m.next (.call c) (.ok a) .now))
    (herror : ∀ e acts, (acts = .later → inThread (.call c) = true) →
      E e (m.next (.call c) (.error e) acts)) :
    (attempt c : Tool σ c.Answer).Obeys (serverProtocol w.server) Q E m := by
  rw [attempt, Proc.attempt, obeys_bind, obeys_call, obeys_ofExcept]
  refine ⟨fun a ha => ?_, fun e he => ?_⟩
  · have hreply : w.reply m (.call c) = .ok a := ha
    have hserver : (w.server (.call c) m).2 = m.next (.call c) (.ok a) .now := by
      rw [Outside.server, Outside.moment, hreply]
      rfl
    rw [hserver]
    exact hok a hreply
  · have hreply : w.reply m (.call c) = .error e := he
    have hserver : (w.server (.call c) m).2 =
        m.next (.call c) (.error e) (w.moment m (.call c)) := by
      rw [Outside.server, hreply]
    rw [hserver]
    exact herror e _ inThread_of_moment

/-! ### The copy of an item -/

theorem writeBlocks_obeys {failure : Option Error} (target : Path) (blocks : List (List UInt8))
    (h : Reading plan walk failure m) :
    (writeBlocks target blocks : Tool σ Unit).Obeys (serverProtocol w.server)
      (fun _ => Reading plan walk failure) (Failed plan) m := by
  induction blocks generalizing m with
  | nil => exact h
  | cons block blocks ih =>
    rw [writeBlocks, obeys_do]
    refine obeys_attempt (fun _ _ => ?_) fun e acts hlate => h.filling.failed trivial hlate
    have hwritten : Inside plan walk (m.next (.call (.write target block)) (.ok ()) .now) :=
      h.toInside.next trivial (by simp)
    rw [obeys_do]
    refine obeys_attempt (fun _ _ => ih ⟨hwritten.next trivial (by simp), h.read, fun e he => ?_⟩)
      fun e acts hlate => hwritten.filling.failed trivial hlate
    have hread : pendingRead m.log = some e := h.read.trans he
    change (pendingRead m.log).or _ = some e
    rw [hread]
    rfl

theorem copyRegularFile_obeys {lib : Library} {item target : Path} {info : Stat}
    (htarget : target ≠ finalOf plan) (h : Inside plan walk m) :
    (copyRegularFile lib item target info : Tool σ (String × Nat)).Obeys (serverProtocol w.server)
      (fun _ => Copied plan walk) (Failed plan) m := by
  rw [copyRegularFile, obeys_do]
  refine obeys_attempt (fun opened _ => ?_) fun e acts hlate => h.filling.failed trivial hlate
  obtain ⟨current, blocks, failure⟩ := opened
  have hopened : Inside plan walk
      (m.next (.call (.openSource item)) (.ok (current, blocks, failure)) .now) :=
    h.next trivial (by simp)
  dsimp only
  rw [obeys_do, obeys_require]
  refine ⟨fun _ => ?_, fun _ => hopened.filling.refused rfl⟩
  rw [obeys_do]
  have hcreate : Inner plan (.call (.create target)) := htarget
  refine obeys_attempt (fun _ _ => ?_) fun e acts hlate => hopened.filling.failed hcreate hlate
  have hcreated : Reading plan walk failure
      ((m.next (.call (.openSource item)) (.ok (current, blocks, failure)) .now).next
        (.call (.create target)) (.ok ()) .now) :=
    ⟨hopened.next hcreate (by simp), rfl, fun e he => he⟩
  rw [obeys_do]
  refine (writeBlocks_obeys target blocks hcreated).mono (fun _ m1 h1 => ?_) fun _ _ h => h
  rw [obeys_do]
  cases failure with
  | some e => exact h1.filling.raised (h1.cause e rfl)
  | none =>
    change ((attempt (.fstat item)).bind _).Obeys _ _ _ _
    rw [obeys_bind]
    refine obeys_attempt (fun final _ => ?_) fun e acts hlate => h1.filling.failed trivial hlate
    have h2 : Inside plan walk (m1.next (.call (.fstat item)) (.ok final) .now) :=
      h1.toInside.next trivial (by simp)
    rw [obeys_do, obeys_require]
    refine ⟨fun _ => ?_, fun _ => h2.filling.refused rfl⟩
    rw [obeys_do]
    exact obeys_attempt (fun _ _ => ⟨h2.next trivial (by simp), rfl, rfl⟩) fun e acts hlate =>
      h2.filling.failed trivial hlate

theorem entryOf_error {relative : Path} {info : Stat} {size : Nat} {entryType : BackupEntryType}
    {checksum : Option String} {e : Error}
    (h : entryOf relative info size entryType checksum = .error e) : e = .value := by
  rw [entryOf] at h
  split at h
  · cases h
  · exact (Except.error.inj h).symm

theorem enter_obeys {r : Except Error BackupEntry} {copied : Nat} (h : Copied plan walk m)
    (hr : ∀ e, r = .error e → e = .value) :
    (do
      let entry ← Proc.ofExcept r
      attempt .send
      attempt .send
      pure (entry, copied) : Tool σ (BackupEntry × Nat)).Obeys (serverProtocol w.server)
      (fun _ => Between plan walk) (Failed plan) m := by
  rw [obeys_do, obeys_ofExcept]
  refine ⟨fun entry _ => ?_, fun e he => hr e he ▸ h.filling.raised h.cause⟩
  rw [obeys_do]
  refine obeys_attempt (fun _ _ => ?_) fun e acts hlate => h.filling.failed trivial hlate
  have h1 : Inside plan walk (m.next (.call .send) (.ok ()) .now) := h.toInside.next trivial (by simp)
  have hread : pendingRead (m.next (.call .send) (.ok ()) .now).log = none := h.read
  rw [obeys_do]
  refine obeys_attempt (fun _ _ => ⟨h1.next trivial (by simp), hread, ?_⟩) fun e acts hlate =>
    h1.filling.failed trivial hlate
  change (pendingRead (m.next (.call .send) (.ok ()) .now).log).or
    (walkFailure (m.next (.call .send) (.ok ()) .now).log) = walk
  rw [hread, h1.walked]
  rfl

variable (hplan : Destined plan)

include hplan in
theorem copyEntry_obeys {lib : Library} {item relative : Path} (h : Inside plan walk m) :
    (copyEntry lib (partialOf plan) item relative : Tool σ (BackupEntry × Nat)).Obeys
      (serverProtocol w.server) (fun _ => Between plan walk) (Failed plan) m := by
  rw [copyEntry]
  dsimp only
  have hbelow : (partialOf plan).isPrefixOf (partialOf plan ++ relative) = true :=
    List.isPrefixOf_iff_prefix.mpr (List.prefix_append _ _)
  rw [hbelow, obeys_do, obeys_require]
  refine ⟨fun _ => ?_, (by simp)⟩
  rw [obeys_do]
  refine obeys_attempt (fun info _ => ?_) fun e acts hlate => h.filling.failed trivial hlate
  have h1 : Inside plan walk (m.next (.call (.lstat item)) (.ok info) .now) := h.next trivial (by simp)
  cases hkind : info.kind with
  | directory =>
    dsimp only
    have hmkdir : Inner plan (.call (.mkdir (partialOf plan ++ relative) info.mode true false)) :=
      ⟨rfl, hplan.apart relative⟩
    rw [obeys_do]
    refine obeys_attempt (fun _ _ => ?_) fun e acts hlate => h1.filling.failed hmkdir hlate
    exact enter_obeys ⟨h1.next hmkdir (by simp), rfl, rfl⟩ fun e he => entryOf_error he
  | regular =>
    dsimp only
    have hmkdir : Inner plan
        (.call (.mkdir (partialOf plan ++ relative).dropLast 0o700 true true)) :=
      ⟨rfl, fun hpre => hplan.apart relative (hpre.trans (List.dropLast_prefix _))⟩
    rw [obeys_do]
    refine obeys_attempt (fun _ _ => ?_) fun e acts hlate => h1.filling.failed hmkdir hlate
    rw [obeys_do]
    refine (copyRegularFile_obeys (fun heq => hplan.apart relative (heq ▸ List.prefix_refl _))
      (h1.next hmkdir (by simp))).mono (fun _ m2 h2 => ?_) fun _ _ h => h
    exact enter_obeys h2 fun e he => entryOf_error he
  | symlink | special => exact h1.filling.refused rfl

include hplan in
theorem copyEntries_obeys {lib : Library} (items : List (Path × Path)) (h : Between plan walk m) :
    (copyEntries lib (partialOf plan) items : Tool σ (List BackupEntry × Nat)).Obeys
      (serverProtocol w.server) (fun _ => Between plan walk) (Failed plan) m := by
  induction items generalizing m with
  | nil => exact h
  | cons item items ih =>
    obtain ⟨item, relative⟩ := item
    rw [copyEntries, obeys_do]
    refine (copyEntry_obeys hplan h.toInside).mono (fun _ m1 h1 => ?_) fun _ _ h => h
    dsimp only
    rw [obeys_do]
    exact (ih h1).mono (fun _ _ h => h) fun _ _ h => h

/-! ### The copy as a whole -/

theorem mountFor_obeys (path : Path) (h : Filling plan m) :
    (mountFor path : Tool σ (Option MountInfo)).Obeys (serverProtocol w.server)
      (fun found m' => Filling plan m' ∧ (found = none → cause m'.log = none)) (Failed plan) m := by
  rw [mountFor, obeys_do, Proc.obeys_observe]
  refine obeys_attempt (fun mounts _ => ⟨h.next trivial, fun _ => rfl⟩) fun e acts hlate => ?_
  dsimp only
  split
  · have h1 : Filling plan (m.next (.call .mounts) (.error e) acts) :=
      h.after trivial fun heq => absurd (hlate heq) Bool.false_ne_true
    rw [obeys_do]
    exact obeys_attempt (fun deviceId _ => ⟨h1.next trivial, (by simp)⟩) fun e acts hlate =>
      h1.failed trivial hlate
  · exact h.failed trivial hlate

theorem Moved.next (h : Moved plan m) (ho : made m.there o = m.there)
    (hacts : acts ≠ .later) : Moved plan (m.next o r acts) := by
  have hthere : (m.next o r acts).there = m.there := by
    change (if acts = .now then made m.there o else m.there) = _
    rw [ho, ite_self]
  obtain ⟨st, hst, hrest⟩ := h.renamed
  exact ⟨hthere ▸ h.published, hthere ▸ h.gone, ⟨st, List.mem_cons_of_mem _ hst, hrest⟩,
    calm_next h.calm hacts⟩

theorem Moved.failed {e : Error} (h : Moved plan m) (ho : made m.there (.call c) = m.there)
    (hc : inThread (.call c) = false) (hremoves : ∀ path, c ≠ .removePartial path)
    (hlate : acts = .later → inThread (.call c) = true) :
    Failed plan e (m.next (.call c) (.error e) acts) := by
  refine ⟨.inr (h.next ho fun heq => ?_), ?_⟩
  · rw [hlate heq] at hc
    cases hc
  · rw [Raised, cause_error hremoves]
    rfl

include hplan in
theorem Filling.replace {r : Res (.call (.replace (partialOf plan) (finalOf plan)))}
    (h : Filling plan m) :
    Moved plan (m.next (.call (.replace (partialOf plan) (finalOf plan))) r .now) := by
  have hself : below (finalOf plan) (finalOf plan) = some [] := by
    simp [below, List.isPrefixOf_iff_prefix.mpr (List.prefix_refl (finalOf plan))]
  have hother : below (finalOf plan) (partialOf plan) = none := by
    have hnot : (finalOf plan).isPrefixOf (partialOf plan) = false := by
      refine Bool.eq_false_iff.mpr fun hpre => hplan.apart [] ?_
      rw [List.append_nil]
      exact List.isPrefixOf_iff_prefix.mp hpre
    simp [below, hnot]
  refine ⟨?_, ?_, ⟨_, List.mem_cons_self, rfl, rfl⟩, calm_next h.calm (by decide)⟩
  · change moved m.there _ _ _ = true
    rw [moved, hself]
    simpa using h.started
  · change moved m.there _ _ _ = false
    rw [moved, hother]
    simp [List.isPrefixOf_iff_prefix.mpr (List.prefix_refl (partialOf plan))]

include hplan in
theorem publish_obeys {manifest : BackupManifest} (h : Filling plan m) :
    (do
      attempt (.replace (partialOf plan) (finalOf plan))
      attempt (.fsyncDirectory (aresRootOf plan))
      attempt .send
      pure manifest : Tool σ BackupManifest).Obeys (serverProtocol w.server)
      (fun _ => Moved plan) (Failed plan) m := by
  rw [obeys_do]
  refine obeys_attempt (fun _ _ => ?_) fun e acts hlate => ?_
  · have h1 : Moved plan (m.next (.call (.replace (partialOf plan) (finalOf plan))) (.ok ()) .now) :=
      h.replace hplan
    rw [obeys_do]
    refine obeys_attempt (fun _ _ => ?_) fun e acts hlate => h1.failed rfl rfl (by simp) hlate
    have h2 : Moved plan ((m.next (.call (.replace (partialOf plan) (finalOf plan))) (.ok ()) .now).next
        (.call (.fsyncDirectory (aresRootOf plan))) (.ok ()) .now) := h1.next rfl (by decide)
    rw [obeys_do]
    exact obeys_attempt (fun _ _ => h2.next rfl (by decide)) fun e acts hlate =>
      h2.failed rfl rfl (by simp) hlate
  · refine ⟨?_, rfl⟩
    by_cases hacts : acts = .now
    · rw [hacts]
      exact .inr (h.replace hplan)
    · have hthere : (m.next (.call (.replace (partialOf plan) (finalOf plan))) (.error e) acts).there =
          m.there := if_neg hacts
      refine .inl ⟨hthere ▸ h.started, hthere ▸ h.unpublished, ?_, ?_⟩
      · rintro ⟨st, hst, hop, hnow⟩
        rcases List.mem_cons.mp hst with rfl | hst
        · exact hacts hnow
        · exact h.unrenamed ⟨st, hst, hop, hnow⟩
      · by_cases hlast : acts = .later
        · exact .inr ⟨_, _, rfl, h.calm, hlast, rfl, .inr rfl⟩
        · exact .inl (calm_next h.calm hlast)

include hplan in
theorem fillPartial_obeys {lib : Library} (source : Path) (h : Filling plan m) :
    (fillPartial lib plan source (aresRootOf plan) (finalOf plan) (partialOf plan) :
      Tool σ BackupManifest).Obeys (serverProtocol w.server) (fun _ => Moved plan) (Failed plan)
      m := by
  rw [fillPartial, obeys_do]
  refine (mountFor_obeys source h).mono (fun found m1 h1 => ?_) fun _ _ h => h
  rw [obeys_do, obeys_ofOption]
  refine ⟨fun sourceInfo _ => ?_, fun hnone => h1.1.refused (h1.2 hnone)⟩
  rw [obeys_do]
  refine obeys_attempt (fun walked _ => ?_) fun e acts hlate => h1.1.failed trivial hlate
  obtain ⟨items, failure⟩ := walked
  have h2 : Between plan failure (m1.next
      (.call (.walkCopyEntries source sourceInfo.deviceId plan.policy)) (.ok (items, failure)) .now) :=
    ⟨⟨h1.1.next trivial, rfl⟩, rfl, rfl⟩
  dsimp only
  rw [obeys_do]
  refine (copyEntries_obeys hplan items h2).mono (fun copied m3 h3 => ?_) fun _ _ h => h
  obtain ⟨entries, bytesDone⟩ := copied
  dsimp only
  rw [obeys_do]
  cases failure with
  | some e => exact h3.filling.raised h3.cause
  | none =>
    change ((require _ _).bind _).Obeys _ _ _ _
    rw [obeys_bind, obeys_require]
    refine ⟨fun _ => ?_, fun _ => h3.filling.refused h3.cause⟩
    rw [obeys_do]
    refine obeys_attempt (fun createdAt _ => ?_) fun e acts hlate => h3.filling.failed trivial hlate
    have h4 : Filling plan (m3.next (.call .now) (.ok createdAt) .now) := h3.filling.next trivial
    rw [obeys_do, writeManifestFile]
    rw [obeys_do, obeys_require]
    refine ⟨fun _ => ?_, fun _ => h4.refused rfl⟩
    have hwrite : ∀ content, Inner plan
        (.call (.writeNew (partialOf plan ++ [manifestName]) content)) := fun content =>
      ⟨fun heq => hplan.apart [manifestName] (heq ▸ List.prefix_refl _), List.dropLast_concat⟩
    exact obeys_attempt (fun _ _ => publish_obeys hplan (h4.next (hwrite _)))
      fun e acts hlate => h4.failed (hwrite _) hlate

/-! ### The threads of cancelled calls -/

section Threads

variable {there : Path → Bool}

theorem landed_stays (ho : Inner plan o) (hthere : there (partialOf plan) = true) :
    landed there o (partialOf plan) = true := by
  rw [landed]
  split
  · exact (made_of_inner there ho).1 _ hthere
  · exact hthere

theorem landed_final (ho : Inner plan o) : landed there o (finalOf plan) = there (finalOf plan) := by
  rw [landed]
  split
  · exact (made_of_inner there ho).2
  · rfl

theorem landed_partial (ho : Inner plan o) (hthread : inThread o = true)
    (hgone : there (partialOf plan) = false) :
    landed there o (partialOf plan) = true ↔
      ∃ path mode existOk, o = .call (.mkdir path mode true existOk) ∧ partialOf plan <+: path := by
  cases o with
  | lock | thread | append => cases hthread
  | call c =>
    cases c with
    | mkdir path mode parents existOk =>
      obtain rfl : parents = true := ho.1
      have hlanded : landed there (.call (.mkdir path mode true existOk)) (partialOf plan) =
          (partialOf plan).isPrefixOf path := by
        simp [landed, possible, made, hgone]
      rw [hlanded, List.isPrefixOf_iff_prefix]
      refine ⟨fun hpre => ⟨path, mode, existOk, rfl, hpre⟩, ?_⟩
      rintro ⟨path', mode', existOk', heq, hpre⟩
      cases heq
      exact hpre
    | writeNew path content =>
      have hlanded : landed there (.call (.writeNew path content)) = there := by
        have himpossible : possible there (.call (.writeNew path content)) = false := by
          change there path.dropLast = false
          rw [ho.2, hgone]
        rw [landed, himpossible]
        rfl
      rw [hlanded, hgone]
      refine ⟨fun h => Bool.false_ne_true h |>.elim, ?_⟩
      rintro ⟨_, _, _, heq, -⟩
      cases heq
    | replace => exact ho.elim
    | _ => cases hthread

theorem recreated_cons {st : Step} {past : List Step} (hlate : st.acts = .later) (h : Calm past) :
    Recreated plan (st :: past) ↔ ∃ path mode existOk,
      st.op = .call (.mkdir path mode true existOk) ∧ partialOf plan <+: path := by
  refine (List.exists_mem_cons_iff _ _ _).trans ⟨?_, fun hop => .inl ⟨hlate, hop⟩⟩
  rintro (hnow | hpast)
  · exact hnow.2
  · exact absurd hpast h.not_recreated

theorem settled_cons {st : Step} {past : List Step} (hlate : st.acts = .later) (h : Calm past) :
    settled there (st :: past) = landed there st.op := by
  rw [settled, if_pos hlate, h.settled]

theorem Halted.stays (h : Halted plan m) :
    m.settled (partialOf plan) = true ∨ m.settled (finalOf plan) = true := by
  rw [Site.settled]
  rcases h.pending with hcalm | ⟨st, past, hlog, hcalm, hlate, -, hinner | hpublish⟩
  · rw [hcalm.settled]
    exact .inl h.started
  · rw [hlog, settled_cons hlate hcalm]
    exact .inl (landed_stays hinner h.started)
  · right
    have hself : below (finalOf plan) (finalOf plan) = some [] := by
      simp [below, List.isPrefixOf_iff_prefix.mpr (List.prefix_refl (finalOf plan))]
    rw [hlog, settled_cons hlate hcalm, hpublish, landed, possible, if_pos h.started]
    change moved m.there _ _ _ = true
    rw [moved, hself]
    simpa using h.started

theorem Pending.settled (h : Pending plan m.log) (hgone : there (partialOf plan) = false)
    (hfinal : there (finalOf plan) = false) :
    (settled there m.log (partialOf plan) = false ∧ settled there m.log (finalOf plan) = false) ↔
      ¬Recreated plan m.log := by
  rcases h with hcalm | ⟨st, past, hlog, hcalm, hlate, hthread, hinner | hpublish⟩
  · rw [hcalm.settled]
    exact ⟨fun _ => hcalm.not_recreated, fun _ => ⟨hgone, hfinal⟩⟩
  · rw [hlog, settled_cons hlate hcalm, recreated_cons hlate hcalm, landed_final hinner,
      ← landed_partial hinner hthread hgone, Bool.not_eq_true]
    exact ⟨fun hsettled => hsettled.1, fun hpart => ⟨hpart, hfinal⟩⟩
  · have himpossible : possible there (.call (.replace (partialOf plan) (finalOf plan))) = false :=
      hgone
    rw [hlog, settled_cons hlate hcalm, recreated_cons hlate hcalm, hpublish, landed, himpossible]
    refine ⟨fun _ => ?_, fun _ => ⟨hgone, hfinal⟩⟩
    rintro ⟨_, _, _, heq, -⟩
    cases heq

end Threads

/-! ### The removal of what is partial -/

/-- How a prepared copy fails. -/
def Ended (plan : BackupPlan) (m : Site) : Prop :=
  RemovalWorks m.log →
    ((m.settled (partialOf plan) = false ∧ m.settled (finalOf plan) = false) ↔
      (cause m.log).all Error.handled = true ∧ ¬Renamed plan m.log ∧ ¬Recreated plan m.log)

theorem Moved.settled (h : Moved plan m) :
    m.settled (finalOf plan) = true ∧ m.settled (partialOf plan) = false := by
  rw [Site.settled, h.calm.settled]
  exact ⟨h.published, h.gone⟩

theorem Failed.unhandled {e : Error} (h : Failed plan e m) (he : e.handled = false) :
    Ended plan m := by
  refine fun _ => ⟨fun hgone => ?_, fun hcond => ?_⟩
  · rcases h.1 with hhalted | hmoved
    · rcases hhalted.stays with hpart | hfinal
      · exact absurd (hpart.symm.trans hgone.1) (by decide)
      · exact absurd (hfinal.symm.trans hgone.2) (by decide)
    · exact absurd (hmoved.settled.1.symm.trans hgone.2) (by decide)
  · have hraised : (cause m.log).all Error.handled = e.handled := h.2
    rw [hcond.1, he] at hraised
    cases hraised

include hplan in
theorem Failed.removed {e : Error} {r : Res (.call (.removePartial (partialOf plan)))}
    (h : Failed plan e m) (he : e.handled = true) :
    Ended plan (m.next (.call (.removePartial (partialOf plan))) r acts) := by
  intro hworks
  obtain rfl : acts = .now := hworks _ List.mem_cons_self _ rfl
  have hcause : (cause (m.next (.call (.removePartial (partialOf plan))) r .now).log).all
      Error.handled = true := h.2.trans he
  have hsettled : (m.next (.call (.removePartial (partialOf plan))) r .now).settled =
      settled (made m.there (.call (.removePartial (partialOf plan)))) m.log := rfl
  have hrecreated : Recreated plan (m.next (.call (.removePartial (partialOf plan))) r .now).log ↔
      Recreated plan m.log := by
    refine (List.exists_mem_cons_iff _ _ _).trans ⟨?_, .inr⟩
    rintro (hnow | hpast)
    · cases hnow.1
    · exact hpast
  rw [renamed_next (by simp), hrecreated, hsettled]
  have hunder : made m.there (.call (.removePartial (partialOf plan))) (partialOf plan) = false := by
    simp [made, List.isPrefixOf_iff_prefix.mpr (List.prefix_refl (partialOf plan))]
  have hfinal : made m.there (.call (.removePartial (partialOf plan))) (finalOf plan) =
      m.there (finalOf plan) := by
    have hnot : (partialOf plan).isPrefixOf (finalOf plan) = false :=
      Bool.eq_false_iff.mpr fun hpre =>
        hplan.final_not_below (List.isPrefixOf_iff_prefix.mp hpre)
    simp [made, hnot]
  rcases h.1 with hhalted | hmoved
  · rw [hhalted.pending.settled hunder (hfinal.trans hhalted.unpublished)]
    exact ⟨fun hnot => ⟨hcause, hhalted.unrenamed, hnot⟩, fun hcond => hcond.2.2⟩
  · rw [hmoved.calm.settled, hfinal, hmoved.published]
    refine ⟨fun hgone => absurd hgone.2 (by decide), fun hcond => absurd hmoved.renamed hcond.2.1⟩

/-! ### Before the copy -/

/-- Nothing has been made at the destination. -/
structure Unbegun (plan : BackupPlan) (m : Site) : Prop where
  unprepared : ¬Prepared plan m.log
  unrenamed : ¬Renamed plan m.log
  calm : Calm m.log

def Begins (plan : BackupPlan) (o : Op) : Prop :=
  o = .call (.mkdir (partialOf plan) 0o700 false false) ∨
    ∃ source target, o = .call (.replace source target)

theorem not_begins (ho : inThread o ≠ true) : ¬Begins plan o := by
  rintro (rfl | ⟨source, target, rfl⟩) <;> exact ho rfl

theorem unprepared_next (h : ¬Prepared plan m.log) (ho : ¬Begins plan o) :
    ¬Prepared plan (m.next o r acts).log := by
  rintro ⟨st, hst, hop, hok⟩
  rcases List.mem_cons.mp hst with rfl | hst
  · exact ho (.inl hop)
  · exact h ⟨st, hst, hop, hok⟩

theorem Unbegun.next (h : Unbegun plan m) (ho : ¬Begins plan o)
    (hacts : acts ≠ .later) : Unbegun plan (m.next o r acts) := by
  refine ⟨unprepared_next h.unprepared ho, ?_, calm_next h.calm hacts⟩
  rw [renamed_next fun heq => ho (.inr ⟨_, _, heq⟩)]
  exact h.unrenamed

/-- How `create_backup` fails: where the destination was prepared, the copy has. -/
def Broken (plan : BackupPlan) (m : Site) : Prop := Prepared plan m.log → Ended plan m

theorem Unbegun.broken (h : Unbegun plan m) : Broken plan m := fun hprepared =>
  absurd hprepared h.unprepared

theorem Unbegun.failed (h : Unbegun plan m) (ho : ¬Begins plan o) :
    Broken plan (m.next o r acts) := fun hprepared =>
  absurd hprepared (unprepared_next h.unprepared ho)

theorem lexists_reply {path : Path} {b : Bool} (h : w.reply m (.call (.lexists path)) = .ok b) :
    b = m.there path := by
  change (w.answer m.log (.call (.lexists path))).map _ = _ at h
  cases hanswer : w.answer m.log (.call (.lexists path)) with
  | error e =>
    rw [hanswer] at h
    cases h
  | ok a =>
    rw [hanswer] at h
    exact (Except.ok.inj h).symm

include hplan in
theorem prepare_obeys (h : Unbegun plan m) :
    (prepareBackupDestination (aresRootOf plan) (finalOf plan) (partialOf plan) :
      Tool σ Unit).Obeys (serverProtocol w.server) (fun _ => Filling plan)
      (fun _ m' => Broken plan m') m := by
  have hlexists : ∀ path, ¬Begins plan (.call (.lexists path)) := fun path =>
    not_begins Bool.false_ne_true
  rw [prepareBackupDestination, obeys_do]
  refine obeys_attempt (fun taken htaken => ?_) fun e acts _ => h.failed (hlexists _)
  have hfree := lexists_reply htaken
  have h1 : Unbegun plan (m.next (.call (.lexists (finalOf plan))) (.ok taken) .now) :=
    h.next (hlexists _) (by decide)
  rw [obeys_do, obeys_require]
  refine ⟨fun htaken => ?_, fun _ => h1.broken⟩
  have hfinal : (m.next (.call (.lexists (finalOf plan))) (.ok taken) .now).there (finalOf plan) =
      false := by
    change m.there (finalOf plan) = false
    rw [← hfree]
    simpa using htaken
  generalize m.next (.call (.lexists (finalOf plan))) (.ok taken) .now = m1 at h1 hfinal
  rw [obeys_do]
  refine obeys_attempt (fun partialTaken _ => ?_) fun e acts _ => h1.failed (hlexists _)
  have h2 : Unbegun plan (m1.next (.call (.lexists (partialOf plan))) (.ok partialTaken) .now) :=
    h1.next (hlexists _) (by decide)
  rw [obeys_do, obeys_require]
  refine ⟨fun _ => ?_, fun _ => h2.broken⟩
  have hfinal2 : (m1.next (.call (.lexists (partialOf plan))) (.ok partialTaken) .now).there
      (finalOf plan) = false := hfinal
  generalize m1.next (.call (.lexists (partialOf plan))) (.ok partialTaken) .now = m2 at h2 hfinal2
  have hares : ¬Begins plan (.call (.mkdir (aresRootOf plan) 0o700 false true)) := by
    simp [Begins]
  have habove : ¬finalOf plan <+: aresRootOf plan := by
    intro hpre
    have hlength : (finalOf plan).length ≤ (aresRootOf plan).length :=
      List.IsPrefix.length_le hpre
    rw [hplan.final_eq, List.length_append, List.length_singleton] at hlength
    omega
  rw [obeys_do]
  refine obeys_attempt (fun _ _ => ?_) fun e acts _ => h2.failed hares
  have h3 : Unbegun plan
      (m2.next (.call (.mkdir (aresRootOf plan) 0o700 false true)) (.ok ()) .now) :=
    h2.next hares (by decide)
  have hstill : (m2.next (.call (.mkdir (aresRootOf plan) 0o700 false true)) (.ok ()) .now).there
      (finalOf plan) = false :=
    (made_mkdir m2.there habove 0o700 false true).trans hfinal2
  generalize m2.next (.call (.mkdir (aresRootOf plan) 0o700 false true)) (.ok ()) .now = m3
    at h3 hstill
  have hunsafe : ¬Begins plan (.call (.unsafeDirectory (aresRootOf plan))) :=
    not_begins Bool.false_ne_true
  rw [obeys_do]
  refine obeys_attempt (fun outside _ => ?_) fun e acts _ => h3.failed hunsafe
  have h4 : Unbegun plan (m3.next (.call (.unsafeDirectory (aresRootOf plan))) (.ok outside) .now) :=
    h3.next hunsafe (by decide)
  rw [obeys_do, obeys_require]
  refine ⟨fun _ => ?_, fun _ => h4.broken⟩
  have hmkdir : ¬finalOf plan <+: partialOf plan := fun hpre =>
    hplan.apart [] (by rwa [List.append_nil])
  refine obeys_attempt (fun _ _ => ⟨⟨?_, ?_, ?_, .inl ?_⟩, ?_⟩) fun e acts _ => ?_
  · change (m3.there (partialOf plan) || decide (partialOf plan = partialOf plan)) = true
    simp
  · exact (made_mkdir _ hmkdir 0o700 false false).trans hstill
  · rw [renamed_next (by simp)]
    exact h4.unrenamed
  · exact calm_next h4.calm (by decide)
  · exact calm_next h4.calm (by decide)
  · rintro ⟨st, hst, hop, hok⟩
    rcases List.mem_cons.mp hst with rfl | hst
    · cases hok
    · exact absurd ⟨st, hst, hop, hok⟩ h4.unprepared

include hplan in
theorem copyBackup_obeys {lib : Library} (h : Unbegun plan m) :
    (copyBackup lib plan : Tool σ BackupManifest).Obeys (serverProtocol w.server)
      (fun _ => Moved plan) (fun _ m' => Broken plan m') m := by
  rw [copyBackup, obeys_do]
  refine (prepare_obeys hplan h).mono (fun _ m1 h1 => ?_) fun _ _ h => h
  rw [obeys_handle]
  refine (fillPartial_obeys hplan _ h1).mono (fun _ _ h => h) fun e m2 h2 => ?_
  have hremove : e.handled = true → ∀ e' : Error,
      (do attempt (.removePartial (partialOf plan)); throw e' : Tool σ BackupManifest).Obeys
        (serverProtocol w.server) (fun _ => Moved plan) (fun _ m' => Broken plan m') m2 := by
    intro he e'
    rw [obeys_do]
    exact obeys_attempt (fun _ _ _ => h2.removed hplan he) fun _ _ _ _ => h2.removed hplan he
  cases e with
  | cancelled | tool code => exact hremove rfl _
  | os | permission => exact hremove rfl _
  | audit | value | other => exact fun _ => h2.unhandled rfl

theorem attempt_avoids {bad : Op → Prop} (h : ¬bad (.call c)) :
    (attempt c : Tool σ c.Answer).Avoids bad :=
  (avoids_perform h).bind fun _ => avoids_ofExcept _

theorem osAs_avoids {bad : Op → Prop} {α : Type} {code : String} {p : Tool σ α}
    (h : p.Avoids bad) : (osAs code p).Avoids bad :=
  h.handle fun _ => avoids_raise _

theorem revalidatePlan_avoids (lib : Library) (plan : BackupPlan) :
    (revalidatePlan lib plan : Tool σ DateTime).Avoids (inThread · = true) := by
  have hlook : ∀ c : Call, inThread (.call c) ≠ true →
      (attempt c : Tool σ c.Answer).Avoids (inThread · = true) := fun _ hc => attempt_avoids hc
  have hcanonical : ∀ raw code, (canonicalExisting raw code : Tool σ Path).Avoids (inThread · = true) :=
    fun raw code => (avoids_require _ _).bind fun _ => (avoids_require _ _).bind fun _ =>
      osAs_avoids (hlook _ (by simp [inThread]))
  have hmount : ∀ path, (mountFor path : Tool σ (Option MountInfo)).Avoids (inThread · = true) := by
    intro path
    rw [mountFor]
    refine (Proc.Avoids.observe (hlook .mounts (by simp [inThread]))).bind fun r => ?_
    cases r with
    | ok mounts => trivial
    | error e =>
      dsimp only
      split
      · exact (hlook _ (by simp [inThread])).bind fun _ => avoids_ret _
      · trivial
  refine (hlook _ (by simp [inThread])).bind fun now => (avoids_require _ _).bind fun _ =>
    (hcanonical _ _).bind fun source => (hcanonical _ _).bind fun destination =>
      (hmount _).bind fun sourceMount => (hmount _).bind fun destinationMount => ?_
  refine (avoids_ofOption _ _).bind fun sourceInfo => (avoids_require _ _).bind fun _ =>
    (avoids_ofOption _ _).bind fun destinationInfo => (avoids_require _ _).bind fun _ =>
      (hlook _ (by simp [inThread])).bind fun _ => (hlook _ (by simp [inThread])).bind fun _ =>
        (avoids_require _ _).bind fun _ => (avoids_require _ _).bind fun _ => ?_
  refine Proc.Avoids.bind ((avoids_require _ _).bind fun _ => avoids_require _ _)
    fun _ => Proc.Avoids.bind ?_ fun _ => (avoids_require _ _).bind fun _ =>
      (hlook _ (by simp [inThread])).bind fun _ => (avoids_require _ _).bind fun _ =>
        (hlook _ (by simp [inThread])).bind fun _ => (avoids_require _ _).bind fun _ =>
          (osAs_avoids (hlook _ (by simp [inThread]))).bind fun _ => (avoids_require _ _).bind
            fun _ => (avoids_require _ _).bind fun _ => avoids_ret _
  exact (avoids_require _ _).bind fun _ => (avoids_require _ _).bind fun _ =>
    (hlook _ (by simp [inThread])).bind fun _ => avoids_require _ _

variable (w) in
include hplan in
theorem createBackup_obeys (lib : Library) (h : Unbegun plan m) :
    (createBackup lib plan : Tool σ BackupManifest).Obeys (serverProtocol w.server)
      (fun _ => Moved plan) (fun _ m' => Broken plan m') m := by
  rw [createBackup, obeys_do]
  exact ((revalidatePlan_avoids lib plan).obeys h fun o m ho hm =>
      hm.next (not_begins ho) fun heq => ho (inThread_of_moment heq)).mono
    (fun _ _ h1 => copyBackup_obeys hplan h1) fun _ _ h1 => h1.broken

end Phases

/-- A backup that was prepared is published completely or not at all exactly when the exception that
ended it is one that a handler takes, came before the backup was moved, and left no `mkdir` to be
made by its thread after the removal. -/
theorem all_or_nothing_iff {σ : Type} (w : Outside) (lib : Library) (plan : BackupPlan)
    (hplan : Destined plan) (s : σ) (there : Path → Bool) (r : Except Error BackupManifest) (s' : σ)
    (m' : Site) (hrun : (createBackup lib plan).apart w.server s ⟨there, []⟩ = (r, s', m'))
    (hprepared : Prepared plan m'.log) (hworks : RemovalWorks m'.log) :
    AllOrNothing plan m' r ↔
      (r.isOk = false → (cause m'.log).all Error.handled = true ∧ ¬Renamed plan m'.log ∧
        ¬Recreated plan m'.log) := by
  have hstart : Unbegun plan ⟨there, []⟩ := ⟨by simp [Prepared], by simp [Renamed], by simp [Calm]⟩
  have hends := (createBackup_obeys w hplan lib hstart).apart (s := s)
  rw [hrun] at hends
  cases r with
  | ok manifest =>
    have hmoved : Moved plan m' := hends
    exact ⟨fun _ => nofun, fun _ => hmoved.settled⟩
  | error e =>
    have hbroken : Broken plan m' := hends
    exact (hbroken hprepared hworks).trans ⟨fun hcond _ => hcond, fun hcond => hcond rfl⟩

/-! ### Callbacks that fail -/

/-- The sample source is a file; every call goes well, and the callbacks end as `send` says. -/
def callbacks (send : List Step → Except Error Unit) : Outside where
  answer log o := match o with
    | .call .send => send log
    | .call (.mkdir _ _ _ _) | .call (.create _) | .call (.write _ _) | .call (.writeNew _ _)
    | .call (.replace _ _) | .call (.removePartial _) => .ok ()
    | .call (.unsafeDirectory _) => .ok false
    | o => (World.server o singleWorld).1
  acts _ _ := .never

/-- The client goes away while a directory is made, and its thread goes on. -/
def slowDirectory : Outside where
  answer log o := match o with
    | .call (.mkdir _ _ true _) => .error .cancelled
    | o => (callbacks fun _ => .ok ()).answer log o
  acts _ _ := .later

def siteRun (w : Outside) : Except Error BackupManifest × Unit × Site :=
  (createBackup (verifiedLibrary singleManifest) singlePlan : Tool Unit BackupManifest).apart
    w.server () ⟨fun _ => false, []⟩

def afterPublication : List Step → Bool
  | ⟨.call (.fsyncDirectory _), _, _⟩ :: _ => true
  | _ => false

def lateCancellation (log : List Step) : Except Error Unit :=
  if afterPublication log then .error .cancelled else .ok ()

def Step.prepares (path : Path) (st : Step) : Bool :=
  match st.op with
  | .call (.mkdir p mode parents existOk) =>
    p = path && mode = 0o700 && !parents && !existOk && succeeded st.op st.answer
  | _ => false

def Step.moves (st : Step) : Bool :=
  match st.op with
  | .call (.replace _ _) => true
  | _ => false

def Step.removalWorks (st : Step) : Bool :=
  match st.op with
  | .call (.removePartial _) => st.acts = .now
  | _ => true

theorem prepared_of_any {plan : BackupPlan} {log : List Step}
    (h : log.any (Step.prepares (partialOf plan)) = true) : Prepared plan log := by
  obtain ⟨st, hst, hprepares⟩ := List.any_eq_true.mp h
  refine ⟨st, hst, ?_⟩
  rw [Step.prepares] at hprepares
  split at hprepares
  · next path mode parents existOk hop =>
    simp only [Bool.and_eq_true, decide_eq_true_eq, Bool.not_eq_true'] at hprepares
    obtain ⟨⟨⟨⟨rfl, rfl⟩, rfl⟩, rfl⟩, hok⟩ := hprepares
    exact ⟨hop, hok⟩
  · cases hprepares

theorem not_renamed_of_all {plan : BackupPlan} {log : List Step}
    (h : log.any Step.moves = false) : ¬Renamed plan log := by
  rintro ⟨st, hst, hop, -⟩
  have hmoves : st.moves = true := by
    rw [Step.moves, hop]
  exact absurd (List.any_eq_true.mpr ⟨st, hst, hmoves⟩) (Bool.eq_false_iff.mp h)

theorem removalWorks_of_all {log : List Step} (h : log.all Step.removalWorks = true) :
    RemovalWorks log := by
  intro st hst path hop
  have hworks := List.all_eq_true.mp h st hst
  rw [Step.removalWorks, hop] at hworks
  exact of_decide_eq_true hworks

theorem calm_of_all {log : List Step} (h : log.all (·.acts ≠ .later) = true) : Calm log :=
  fun st hst => of_decide_eq_true (List.all_eq_true.mp h st hst)

theorem singlePlan_destined : Destined singlePlan := by
  obtain ⟨hnamed, hpath⟩ : Named singlePlan.backupId ∧ singlePlan.destination.backupPath =
      ((aresRootOf singlePlan).join singlePlan.backupId).str := by decide +kernel
  exact ⟨hnamed, hpath⟩

theorem siteRun_eq (w : Outside) :
    (createBackup (verifiedLibrary singleManifest) singlePlan : Tool Unit BackupManifest).apart
      w.server () ⟨fun _ => false, []⟩ = ((siteRun w).1, (siteRun w).2.1, (siteRun w).2.2) :=
  eq_of_fst (x := siteRun w) rfl

theorem AllOrNothing.of_fails {plan : BackupPlan} {m : Site} {r : Except Error BackupManifest}
    (h : AllOrNothing plan m r) (hr : r.isOk = false) :
    m.settled (partialOf plan) = false ∧ m.settled (finalOf plan) = false := by
  cases r with
  | ok manifest => cases hr
  | error e => exact h

def preparedFailure (out : Except Error BackupManifest × Unit × Site) : Bool :=
  !out.1.isOk && out.2.2.log.any (Step.prepares (partialOf singlePlan)) &&
    out.2.2.log.all Step.removalWorks

theorem of_preparedFailure {out : Except Error BackupManifest × Unit × Site}
    (h : preparedFailure out = true) :
    out.1.isOk = false ∧ Prepared singlePlan out.2.2.log ∧ RemovalWorks out.2.2.log := by
  rw [preparedFailure, Bool.and_eq_true, Bool.and_eq_true, Bool.not_eq_true'] at h
  exact ⟨h.1.1, prepared_of_any h.1.2, removalWorks_of_all h.2⟩

/-- A cancelled callback in the middle of the copy, one that raises an exception of another class,
a client that goes away at the last callback, and one that does while a directory is made. -/
theorem site_runs : (preparedFailure (siteRun (callbacks fun _ => .error .cancelled)) = true ∧
      (cause (siteRun (callbacks fun _ => .error .cancelled)).2.2.log).all Error.handled = true ∧
      (siteRun (callbacks fun _ => .error .cancelled)).2.2.log.any Step.moves = false ∧
      (siteRun (callbacks fun _ => .error .cancelled)).2.2.log.all (·.acts ≠ .later) = true) ∧
    (preparedFailure (siteRun (callbacks fun _ => .error .other)) = true ∧
      (siteRun (callbacks fun _ => .error .other)).2.2.log.any Step.moves = false ∧
      (siteRun (callbacks fun _ => .error .other)).2.2.log.all (·.acts ≠ .later) = true ∧
      (siteRun (callbacks fun _ => .error .other)).2.2.settled (partialOf singlePlan) = true) ∧
    (preparedFailure (siteRun (callbacks lateCancellation)) = true ∧
      (cause (siteRun (callbacks lateCancellation)).2.2.log).all Error.handled = true ∧
      (siteRun (callbacks lateCancellation)).2.2.log.all (·.acts ≠ .later) = true ∧
      (siteRun (callbacks lateCancellation)).2.2.settled (finalOf singlePlan) = true) ∧
    preparedFailure (siteRun slowDirectory) = true ∧
      (cause (siteRun slowDirectory).2.2.log).all Error.handled = true ∧
      (siteRun slowDirectory).2.2.log.any Step.moves = false ∧
      (siteRun slowDirectory).2.2.settled (partialOf singlePlan) = true := by
  decide +kernel

theorem all_or_nothing_sample : (siteRun (callbacks fun _ => .error .cancelled)).1.isOk = false ∧
    AllOrNothing singlePlan (siteRun (callbacks fun _ => .error .cancelled)).2.2
      (siteRun (callbacks fun _ => .error .cancelled)).1 := by
  obtain ⟨hfailure, hcause, hmoves, hcalm⟩ := site_runs.1
  have hrun := siteRun_eq (callbacks fun _ => .error .cancelled)
  generalize siteRun (callbacks fun _ => .error .cancelled) = out at *
  obtain ⟨hfails, hprepared, hworks⟩ := of_preparedFailure hfailure
  exact ⟨hfails, (all_or_nothing_iff (callbacks fun _ => .error .cancelled)
    (verifiedLibrary singleManifest) singlePlan singlePlan_destined () (fun _ => false) _ _ _ hrun
    hprepared hworks).mpr fun _ =>
      ⟨hcause, not_renamed_of_all hmoves, (calm_of_all hcalm).not_recreated⟩⟩

/-- A callback that raises an exception of another class leaves the partial directory, a client that
goes away after the publication leaves the final one, and the `mkdir` of one that goes away in the
copy may make the partial directory again. -/
theorem failure_leaves_directory :
    (¬∀ (w : Outside) (lib : Library) (plan : BackupPlan), Destined plan →
      ∀ (s : Unit) (there : Path → Bool) r s' m',
        (createBackup lib plan).apart w.server s ⟨there, []⟩ = (r, s', m') →
        Prepared plan m'.log → RemovalWorks m'.log → ¬Renamed plan m'.log →
        ¬Recreated plan m'.log → AllOrNothing plan m' r) ∧
    (¬∀ (w : Outside) (lib : Library) (plan : BackupPlan), Destined plan →
      ∀ (s : Unit) (there : Path → Bool) r s' m',
        (createBackup lib plan).apart w.server s ⟨there, []⟩ = (r, s', m') →
        Prepared plan m'.log → RemovalWorks m'.log →
        (cause m'.log).all Error.handled = true → ¬Recreated plan m'.log →
        AllOrNothing plan m' r) ∧
    ¬∀ (w : Outside) (lib : Library) (plan : BackupPlan), Destined plan →
      ∀ (s : Unit) (there : Path → Bool) r s' m',
        (createBackup lib plan).apart w.server s ⟨there, []⟩ = (r, s', m') →
        Prepared plan m'.log → RemovalWorks m'.log →
        (cause m'.log).all Error.handled = true → ¬Renamed plan m'.log →
        AllOrNothing plan m' r := by
  obtain ⟨-, hother, hlate, hslow⟩ := site_runs
  refine ⟨fun claim => ?_, fun claim => ?_, fun claim => ?_⟩
  · obtain ⟨hfailure, hmoves, hcalm, hthere⟩ := hother
    have hrun := siteRun_eq (callbacks fun _ => .error .other)
    generalize siteRun (callbacks fun _ => .error .other) = out at *
    obtain ⟨hfails, hprepared, hworks⟩ := of_preparedFailure hfailure
    have hends := claim (callbacks fun _ => .error .other) (verifiedLibrary singleManifest) singlePlan
      singlePlan_destined () (fun _ => false) _ _ _ hrun hprepared hworks
      (not_renamed_of_all hmoves) (calm_of_all hcalm).not_recreated
    exact absurd (hthere.symm.trans (hends.of_fails hfails).1) (by decide)
  · obtain ⟨hfailure, hcause, hcalm, hthere⟩ := hlate
    have hrun := siteRun_eq (callbacks lateCancellation)
    generalize siteRun (callbacks lateCancellation) = out at *
    obtain ⟨hfails, hprepared, hworks⟩ := of_preparedFailure hfailure
    have hends := claim (callbacks lateCancellation) (verifiedLibrary singleManifest) singlePlan
      singlePlan_destined () (fun _ => false) _ _ _ hrun hprepared hworks hcause
      (calm_of_all hcalm).not_recreated
    exact absurd (hthere.symm.trans (hends.of_fails hfails).2) (by decide)
  · obtain ⟨hfailure, hcause, hmoves, hthere⟩ := hslow
    have hrun := siteRun_eq slowDirectory
    generalize siteRun slowDirectory = out at *
    obtain ⟨hfails, hprepared, hworks⟩ := of_preparedFailure hfailure
    have hends := claim slowDirectory (verifiedLibrary singleManifest) singlePlan
      singlePlan_destined () (fun _ => false) _ _ _ hrun hprepared hworks hcause
      (not_renamed_of_all hmoves)
    exact absurd (hthere.symm.trans (hends.of_fails hfails).1) (by decide)

end Ares.Backups
