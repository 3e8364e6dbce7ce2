import Ares.Data.Sweep
import Ares.Storage.Models

/-! The transactions that a stopped process leaves behind: what `prepare` makes of the directory
`transactions` when the store starts.  The JSON codec and the validation of a record are parameters;
the disk takes every write. -/

namespace Ares.Storage

open Data

def maxRecordBytes : Nat := 12000000

/-- An entry of a directory.  Reading an unreadable file raises `OSError`. -/
inductive Stored
  | special
  | unreadable (content : List UInt8)
  | file (content : List UInt8)
deriving DecidableEq

abbrev Directory := String → Option Stored

/-- What `json.loads` of a text gives: a value, a `ValueError`, or a `RecursionError`. -/
inductive Loaded
  | value (value : Json)
  | invalid
  | tooDeep

structure StoreLibrary where
  /-- `json.loads` of the bytes, read as UTF-8. -/
  loads : List UInt8 → Loaded
  /-- `StorageTransaction.model_validate`, at the time that `created_at` has by default. -/
  modelValidate : DateTime → Fields → Option StorageTransaction
  /-- The UTF-8 bytes of `json.dumps` of `model_dump(mode="json")`, or none where one of them
  raises. -/
  dumps : StorageTransaction → Option (List UInt8)

/-- What `prepare` reads off the clock while it is at the file of a name. -/
structure Clock where
  created : String → DateTime
  finished : String → DateTime

inductive StoreError
  | recursion
  | encoding
  | recordTooLarge
deriving DecidableEq

/-! ### The source -/

section Store

variable (lib : StoreLibrary)

def encodeTransaction (t : StorageTransaction) : Except StoreError (List UInt8) :=
  match lib.dumps t with
  | none => .error .encoding
  | some text =>
      let encoded := text ++ [10]
      if encoded.length > maxRecordBytes then .error .recordTooLarge else .ok encoded

/-- `_write`, as the entry that it leaves. -/
def write (t : StorageTransaction) : Except StoreError (Option Stored) :=
  (encodeTransaction lib t).map fun encoded => some (.file encoded)

def read : Option Stored → Except StoreError (Option Fields)
  | none | some .special | some (.unreadable _) => .ok none
  | some (.file content) =>
      if content.length > maxRecordBytes then .ok none
      else
        -- `except (OSError, ValueError)` does not catch a `RecursionError`.
        match lib.loads content with
        | .value (.obj payload) => .ok (some payload)
        | .value _ | .invalid => .ok none
        | .tooDeep => .error .recursion

def StorageTransaction.interrupted (t : StorageTransaction) : StorageTransaction :=
  { t with
    status := .unknown
    finishedAt := none
    reconciliationRequired := true
    errorCode := some "STORAGE_OPERATION_INTERRUPTED"
    lastKnownStage :=
      match t.lastKnownStage with
      | none | some "" => some "process-restart"
      | some stage => some stage }

def StorageTransaction.authorizationLost (t : StorageTransaction) (now : DateTime) :
    StorageTransaction :=
  { t with
    status := .aborted
    finishedAt := some now
    errorCode := some "STORAGE_AUTHORIZATION_LOST_ON_RESTART"
    lastKnownStage := some "authorization-not-executed" }

def StorageTransaction.updated (t : StorageTransaction) (now : DateTime) :
    Option StorageTransaction :=
  match t.status with
  | .executing | .verifying => some t.interrupted
  | .authorized => some (t.authorizationLost now)
  | _ => none

def reconcileFile (clock : Clock) (name : String) (entry : Option Stored) :
    Except StoreError (Option Stored) := do
  match ← read lib entry with
  | none => return entry
  | some payload =>
      match lib.modelValidate (clock.created name) payload with
      | none => return entry
      | some transaction =>
          match transaction.updated (clock.finished name) with
          | some updated => write lib updated
          | none => return entry

/-- `_reconcile_interrupted`, over the names in the order of `glob("*.json")`: the directory that it
leaves, and the exception that ends it early. -/
def reconcileInterrupted (clock : Clock) (names : List String) (dir : Directory) :
    Directory × Option StoreError :=
  sweep (reconcileFile lib clock) names dir

end Store

/-- A name that `glob("*.json")` matches. -/
def isRecord (name : String) : Bool := ".json".toList.isSuffixOf name.toList

/-- The names that `glob("*.json")` yields, in some order. -/
structure Globbed (dir : Directory) (names : List String) : Prop where
  nodup : names.Nodup
  mem_iff : ∀ name, name ∈ names ↔ isRecord name = true ∧ (dir name).isSome = true

/-! ### Records -/

/-- `^[a-f0-9]{64}$`. -/
def sha256Pattern (s : String) : Bool :=
  s.length = 64 && s.toList.all fun c => ('a' ≤ c && c ≤ 'f') || ('0' ≤ c && c ≤ '9')

/-- The constraints of the fields of a `StorageTransaction`. -/
structure StorageTransaction.Valid (t : StorageTransaction) : Prop where
  sessionId : 8 ≤ t.sessionId.length ∧ t.sessionId.length ≤ 128
  lastKnownStage : ∀ stage, t.lastKnownStage = some stage → stage.length ≤ 128
  beforeLayout : ∀ sha, t.beforeLayoutSha256 = some sha → sha256Pattern sha = true
  afterLayout : ∀ sha, t.afterLayoutSha256 = some sha → sha256Pattern sha = true
  errorCode : ∀ code, t.errorCode = some code → code.length ≤ 128

/-- Validation accepts nothing that breaks a constraint, and takes the time only for a default.  A
record that was written is read back, apart from what the encoding makes of `metadata`. -/
structure StoreLibrary.Lawful (lib : StoreLibrary) : Prop where
  valid : ∀ {now payload t}, lib.modelValidate now payload = some t → t.Valid
  anytime : ∀ {now payload t}, lib.modelValidate now payload = some t →
    ∀ now', ∃ createdAt, lib.modelValidate now' payload = some { t with createdAt }
  loads_dumps : ∀ {t text}, t.Valid → lib.dumps t = some text →
    ∃ payload metadata, lib.loads (text ++ [10]) = .value (.obj payload) ∧
      ∀ now, lib.modelValidate now payload = some { t with metadata }

/-- The transaction in a file, as `get_transaction` returns it. -/
def readTransaction (lib : StoreLibrary) (now : DateTime) (entry : Option Stored) :
    Option StorageTransaction :=
  match read lib entry with
  | .ok (some payload) => lib.modelValidate now payload
  | _ => none

def StorageTransaction.active (t : StorageTransaction) : Bool :=
  t.status = .authorized || t.status = .executing || t.status = .verifying

/-- What a restart owes to the directory `dir`, with `dir'` the directory that it leaves. -/
structure Recovers (lib : StoreLibrary) (clock : Clock) (dir dir' : Directory) : Prop where
  inactive : ∀ name now t, isRecord name = true → readTransaction lib now (dir' name) = some t →
    t.active = false
  interrupted : ∀ name now t, isRecord name = true →
    readTransaction lib (clock.created name) (dir name) = some t →
    t.status = .executing ∨ t.status = .verifying →
      ∃ t', readTransaction lib now (dir' name) = some t' ∧ t'.status = .unknown ∧
        t'.reconciliationRequired = true ∧ t'.finishedAt = none ∧ t'.planId = t.planId ∧
        t'.sessionId = t.sessionId ∧ t'.checkpointId = t.checkpointId ∧
        t'.authorizationChallengeId = t.authorizationChallengeId ∧
        ∀ stage, t.lastKnownStage = some stage → stage ≠ "" → t'.lastKnownStage = some stage
  aborted : ∀ name now t, isRecord name = true →
    readTransaction lib (clock.created name) (dir name) = some t → t.status = .authorized →
      ∃ t', readTransaction lib now (dir' name) = some t' ∧ t'.status = .aborted ∧
        t'.finishedAt.isSome = true
  frame : ∀ name,
    (isRecord name = true → ∀ t, readTransaction lib (clock.created name) (dir name) = some t →
      t.active = false) → dir' name = dir name

/-- `prepare` returns, the directory is recovered, and a second `prepare` changes no file. -/
def Prepares (lib : StoreLibrary) (clock : Clock) (names : List String) (dir : Directory) : Prop :=
  ∃ dir', reconcileInterrupted lib clock names dir = (dir', none) ∧ Recovers lib clock dir dir' ∧
    ∀ clock' names', Globbed dir' names' →
      reconcileInterrupted lib clock' names' dir' = (dir', none)

def Encodable (lib : StoreLibrary) (t : StorageTransaction) : Prop :=
  ∃ text, lib.dumps t = some text ∧ text.length < maxRecordBytes

/-- No record file is nested too deep for `json.loads`, and every active transaction can be written
again with the fields of the recovery. -/
def Recoverable (lib : StoreLibrary) (clock : Clock) (dir : Directory) : Prop :=
  ∀ name, isRecord name = true →
    (∀ content, dir name = some (.file content) → content.length ≤ maxRecordBytes →
      lib.loads content ≠ .tooDeep) ∧
    ∀ t updated, readTransaction lib (clock.created name) (dir name) = some t →
      t.updated (clock.finished name) = some updated → Encodable lib updated

/-! ### One file -/

variable {lib : StoreLibrary} {clock : Clock}

theorem read_error_iff {entry : Option Stored} {e : StoreError} :
    read lib entry = .error e ↔ e = .recursion ∧ ∃ content, entry = some (.file content) ∧
      content.length ≤ maxRecordBytes ∧ lib.loads content = .tooDeep := by
  unfold read
  split
  · simp
  · simp
  · simp
  · rename_i content
    split
    · rename_i hsize
      have large : ¬content.length ≤ maxRecordBytes := by omega
      simp [large]
    · rename_i hsize
      have small : content.length ≤ maxRecordBytes := by omega
      cases hloads : lib.loads content with
      | invalid => simp [hloads]
      | tooDeep => simp [hloads, small, eq_comm]
      | value v => cases v <;> simp [hloads]

theorem write_ok_iff {t : StorageTransaction} {entry : Option Stored} :
    write lib t = .ok entry ↔ ∃ text, lib.dumps t = some text ∧ text.length < maxRecordBytes ∧
      entry = some (.file (text ++ [10])) := by
  unfold write encodeTransaction
  cases hdumps : lib.dumps t with
  | none => simp [Except.map]
  | some text =>
      simp only [List.length_append, List.length_singleton]
      split
      · have large : ¬text.length < maxRecordBytes := by omega
        simp [Except.map, large]
      · have small : text.length < maxRecordBytes := by omega
        simp [Except.map, small, eq_comm]

theorem updated_eq_none_iff {t : StorageTransaction} {now : DateTime} :
    t.updated now = none ↔ t.active = false := by
  unfold StorageTransaction.updated StorageTransaction.active
  cases t.status <;> simp

theorem updated_of_active {t : StorageTransaction} (now : DateTime) (h : t.active = true) :
    ∃ updated, t.updated now = some updated := by
  apply Option.ne_none_iff_exists'.mp
  intro hnone
  rw [updated_eq_none_iff.mp hnone] at h
  cases h

theorem inactive_of_updated {t updated : StorageTransaction} {now : DateTime}
    (h : t.updated now = some updated) : updated.active = false := by
  unfold StorageTransaction.updated at h
  split at h
  · exact Option.some.inj h ▸ rfl
  · exact Option.some.inj h ▸ rfl
  · exact Option.some.inj h ▸ rfl
  · cases h

theorem interrupted_lastKnownStage {t : StorageTransaction} {stage : String}
    (h : t.lastKnownStage = some stage) (hne : stage ≠ "") :
    t.interrupted.lastKnownStage = some stage := by
  simp only [StorageTransaction.interrupted, h]

/-- What a visit to a file can do: it fails where the read does, it leaves the file without an active
transaction, and it writes the updated record of an active one. -/
theorem reconcileFile_eq (lib : StoreLibrary) (clock : Clock) (name : String)
    (entry : Option Stored) :
    (∃ e, read lib entry = .error e ∧ reconcileFile lib clock name entry = .error e) ∨
      ((∀ e, read lib entry ≠ .error e) ∧
        (∀ t, readTransaction lib (clock.created name) entry = some t → t.active = false) ∧
        reconcileFile lib clock name entry = .ok entry) ∨
      ∃ t updated, readTransaction lib (clock.created name) entry = some t ∧
        t.updated (clock.finished name) = some updated ∧
        reconcileFile lib clock name entry = write lib updated := by
  unfold reconcileFile readTransaction
  cases hr : read lib entry with
  | error e => exact Or.inl ⟨e, rfl, rfl⟩
  | ok payload =>
      right
      cases payload with
      | none => exact Or.inl ⟨by simp, by simp, rfl⟩
      | some payload =>
          simp only [bind, Except.bind]
          cases hv : lib.modelValidate (clock.created name) payload with
          | none => exact Or.inl ⟨by simp, by simp, rfl⟩
          | some t =>
              cases hactive : t.active with
              | false =>
                  have idle : t.updated (clock.finished name) = none :=
                    updated_eq_none_iff.mpr hactive
                  refine Or.inl ⟨by simp, ?_, ?_⟩
                  · intro t' ht'
                    rw [← Option.some.inj ht', hactive]
                  · simp only [idle]
                    rfl
              | true =>
                  obtain ⟨updated, hupdated⟩ := updated_of_active (clock.finished name) hactive
                  exact Or.inr ⟨t, updated, rfl, hupdated, by simp only [hupdated]⟩

theorem reconcileFile_ok_iff {name : String} {entry : Option Stored} :
    (∃ entry', reconcileFile lib clock name entry = .ok entry') ↔
      (∀ content, entry = some (.file content) → content.length ≤ maxRecordBytes →
        lib.loads content ≠ .tooDeep) ∧
      ∀ t updated, readTransaction lib (clock.created name) entry = some t →
        t.updated (clock.finished name) = some updated → Encodable lib updated := by
  rcases reconcileFile_eq lib clock name entry with
    ⟨e, hread, hresult⟩ | ⟨hread, hidle, hresult⟩ | ⟨t, updated, ht, hupdated, hresult⟩
  · obtain ⟨-, content, hentry, hsize, hdeep⟩ := read_error_iff.mp hread
    rw [hresult]
    constructor
    · rintro ⟨entry', h⟩
      cases h
    · rintro ⟨h, -⟩
      exact absurd hdeep (h content hentry hsize)
  · constructor
    · intro
      constructor
      · intro content hentry hsize hdeep
        exact hread _ (read_error_iff.mpr ⟨rfl, content, hentry, hsize, hdeep⟩)
      · intro t updated ht hupdated
        rw [updated_eq_none_iff.mpr (hidle t ht)] at hupdated
        cases hupdated
    · intro
      exact ⟨entry, hresult⟩
  · have hread : ∀ e, read lib entry ≠ .error e := by
      intro e he
      simp [readTransaction, he] at ht
    rw [hresult]
    constructor
    · rintro ⟨entry', h⟩
      obtain ⟨text, hdumps, hsize, -⟩ := write_ok_iff.mp h
      constructor
      · intro content hentry hsize hdeep
        exact hread _ (read_error_iff.mpr ⟨rfl, content, hentry, hsize, hdeep⟩)
      · intro t' updated' ht' hupdated'
        rw [ht] at ht'
        cases ht'
        rw [hupdated] at hupdated'
        cases hupdated'
        exact ⟨text, hdumps, hsize⟩
    · rintro ⟨-, h⟩
      obtain ⟨text, hdumps, hsize⟩ := h t updated ht hupdated
      exact ⟨_, write_ok_iff.mpr ⟨text, hdumps, hsize, rfl⟩⟩

/-! ### What is written can be read -/

section Lawful

variable (lawful : lib.Lawful)

include lawful

theorem readTransaction_valid {now : DateTime} {entry : Option Stored} {t : StorageTransaction}
    (h : readTransaction lib now entry = some t) : t.Valid := by
  unfold readTransaction at h
  split at h
  · exact lawful.valid h
  · cases h

theorem readTransaction_anytime {now : DateTime} {entry : Option Stored} {t : StorageTransaction}
    (h : readTransaction lib now entry = some t) (now' : DateTime) :
    ∃ createdAt, readTransaction lib now' entry = some { t with createdAt } := by
  unfold readTransaction at h ⊢
  split at h
  · exact lawful.anytime h now'
  · cases h

theorem inactive_anytime {now : DateTime} {entry : Option Stored}
    (h : ∀ t, readTransaction lib now entry = some t → t.active = false) (now' : DateTime) :
    ∀ t, readTransaction lib now' entry = some t → t.active = false := by
  intro t ht
  obtain ⟨createdAt, ht'⟩ := readTransaction_anytime lawful ht now
  have inactive := h _ ht'
  exact inactive

omit lawful in
theorem updated_valid {t updated : StorageTransaction} {now : DateTime} (valid : t.Valid)
    (h : t.updated now = some updated) : updated.Valid := by
  have stages : "process-restart".length ≤ 128 ∧ "authorization-not-executed".length ≤ 128 := by
    decide
  have codes : "STORAGE_OPERATION_INTERRUPTED".length ≤ 128 ∧
      "STORAGE_AUTHORIZATION_LOST_ON_RESTART".length ≤ 128 := by decide
  have hinterrupted : t.interrupted.Valid := by
    refine ⟨valid.sessionId, ?_, valid.beforeLayout, valid.afterLayout, ?_⟩
    · intro stage hstage
      simp only [StorageTransaction.interrupted] at hstage
      split at hstage
      · exact Option.some.inj hstage ▸ stages.1
      · exact Option.some.inj hstage ▸ stages.1
      · rename_i kept
        exact valid.lastKnownStage stage (kept.trans hstage)
    · intro code hcode
      exact Option.some.inj hcode ▸ codes.1
  have hlost : (t.authorizationLost now).Valid := by
    refine ⟨valid.sessionId, ?_, valid.beforeLayout, valid.afterLayout, ?_⟩
    · intro stage hstage
      exact Option.some.inj hstage ▸ stages.2
    · intro code hcode
      exact Option.some.inj hcode ▸ codes.2
  unfold StorageTransaction.updated at h
  split at h
  · exact Option.some.inj h ▸ hinterrupted
  · exact Option.some.inj h ▸ hinterrupted
  · exact Option.some.inj h ▸ hlost
  · cases h

theorem readTransaction_written {t : StorageTransaction} {text : List UInt8} (valid : t.Valid)
    (hdumps : lib.dumps t = some text) (hsize : text.length < maxRecordBytes) :
    ∃ metadata, ∀ now,
      readTransaction lib now (some (.file (text ++ [10]))) = some { t with metadata } := by
  obtain ⟨payload, metadata, hloads, hvalidate⟩ := lawful.loads_dumps valid hdumps
  refine ⟨metadata, ?_⟩
  intro now
  have small : ¬(text ++ [10]).length > maxRecordBytes := by
    rw [List.length_append, List.length_singleton]
    omega
  have hread : read lib (some (.file (text ++ [10]))) = .ok (some payload) := by
    simp only [read, if_neg small, hloads]
  simp only [readTransaction, hread, hvalidate now]

/-- What a visit that does not fail leaves: a file without an active transaction as it was, the
updated record in the place of an active one. -/
theorem reconcileFile_cases {name : String} {entry entry' : Option Stored}
    (h : reconcileFile lib clock name entry = .ok entry') :
    entry' = entry ∧
        (∀ t, readTransaction lib (clock.created name) entry = some t → t.active = false) ∨
      ∃ t updated metadata, readTransaction lib (clock.created name) entry = some t ∧
        t.updated (clock.finished name) = some updated ∧
        ∀ now, readTransaction lib now entry' = some { updated with metadata } := by
  rcases reconcileFile_eq lib clock name entry with
    ⟨e, -, hresult⟩ | ⟨-, hidle, hresult⟩ | ⟨t, updated, ht, hupdated, hresult⟩
  · rw [hresult] at h
    cases h
  · rw [hresult] at h
    exact Or.inl ⟨(Except.ok.inj h).symm, hidle⟩
  · rw [hresult, write_ok_iff] at h
    obtain ⟨text, hdumps, hsize, rfl⟩ := h
    have valid := updated_valid (readTransaction_valid lawful ht) hupdated
    obtain ⟨metadata, hwritten⟩ := readTransaction_written lawful valid hdumps hsize
    exact Or.inr ⟨t, updated, metadata, ht, hupdated, hwritten⟩

theorem reconcileFile_settled {name : String} {entry entry' : Option Stored}
    (h : reconcileFile lib clock name entry = .ok entry') (clock' : Clock) :
    reconcileFile lib clock' name entry' = .ok entry' := by
  have hread : ∀ e, read lib entry' ≠ .error e := by
    intro e he
    rcases reconcileFile_cases lawful h with ⟨rfl, -⟩ | ⟨t, updated, metadata, -, -, hafter⟩
    · obtain ⟨-, content, hentry, hsize, hdeep⟩ := read_error_iff.mp he
      exact (reconcileFile_ok_iff.mp ⟨entry', h⟩).1 content hentry hsize hdeep
    · have hnow := hafter 0
      simp [readTransaction, he] at hnow
  have hidle : ∀ t, readTransaction lib (clock'.created name) entry' = some t →
      t.active = false := by
    rcases reconcileFile_cases lawful h with ⟨rfl, hidle⟩ | ⟨t, updated, metadata, -, hu, hafter⟩
    · exact inactive_anytime lawful hidle _
    · intro t' ht'
      rw [hafter, Option.some.injEq] at ht'
      subst ht'
      have inactive := inactive_of_updated hu
      exact inactive
  rcases reconcileFile_eq lib clock' name entry' with
    ⟨e, he, -⟩ | ⟨-, -, hresult⟩ | ⟨t, updated, ht, hupdated, -⟩
  · exact absurd he (hread e)
  · exact hresult
  · rw [updated_eq_none_iff.mpr (hidle t ht)] at hupdated
    cases hupdated

/-! ### The directory -/

variable {dir : Directory} {names : List String} (globbed : Globbed dir names)

include globbed

omit lawful in
theorem reconciled_iff :
    (reconcileInterrupted lib clock names dir).2 = none ↔ Recoverable lib clock dir := by
  unfold reconcileInterrupted
  rw [sweep_none_iff globbed.nodup]
  constructor
  · intro h name hname
    by_cases hsome : (dir name).isSome = true
    · exact reconcileFile_ok_iff.mp (h name ((globbed.mem_iff name).mpr ⟨hname, hsome⟩))
    · rw [Option.not_isSome_iff_eq_none.mp hsome]
      simp [readTransaction, read]
  · intro h name hmem
    exact reconcileFile_ok_iff.mpr (h name ((globbed.mem_iff name).mp hmem).1)

omit lawful in
theorem readTransaction_of_not_mem {name : String} (hname : isRecord name = true)
    (hmem : name ∉ names) (now : DateTime) : readTransaction lib now (dir name) = none := by
  have absent : dir name = none := by
    apply Option.not_isSome_iff_eq_none.mp
    intro hsome
    exact hmem ((globbed.mem_iff name).mpr ⟨hname, hsome⟩)
  simp [absent, readTransaction, read]

theorem recovers_of_reconciled (h : (reconcileInterrupted lib clock names dir).2 = none) :
    Recovers lib clock dir (reconcileInterrupted lib clock names dir).1 := by
  -- Each visited file is in one of the two cases; the others are as they were.
  have hvisited : ∀ name ∈ names, _ := fun name hmem =>
    reconcileFile_cases lawful (sweep_visited globbed.nodup h hmem)
  have hkept : ∀ name, name ∉ names →
      (reconcileInterrupted lib clock names dir).1 name = dir name := fun name hmem =>
    sweep_of_not_mem hmem dir
  have hread : ∀ name t, isRecord name = true →
      readTransaction lib (clock.created name) (dir name) = some t → name ∈ names := by
    intro name t hname ht
    by_contra hmem
    rw [readTransaction_of_not_mem globbed hname hmem] at ht
    cases ht
  refine ⟨?_, ?_, ?_, ?_⟩
  · intro name now t hname ht
    by_cases hmem : name ∈ names
    · rcases hvisited name hmem with ⟨hsame, hidle⟩ | ⟨u, updated, metadata, -, hupdated, hafter⟩
      · refine inactive_anytime lawful hidle now t ?_
        rw [← hsame]
        exact ht
      · have heq := (hafter now).symm.trans ht
        rw [← Option.some.inj heq]
        have inactive := inactive_of_updated hupdated
        exact inactive
    · rw [hkept name hmem, readTransaction_of_not_mem globbed hname hmem] at ht
      cases ht
  · intro name now t hname ht hstatus
    rcases hvisited name (hread name t hname ht) with
      ⟨-, hidle⟩ | ⟨u, updated, metadata, hu, hupdated, hafter⟩
    · have hactive := hidle t ht
      rcases hstatus with hstatus | hstatus <;> simp [StorageTransaction.active, hstatus] at hactive
    · rw [ht] at hu
      cases hu
      refine ⟨_, hafter now, ?_⟩
      have hinterrupted : updated = t.interrupted := by
        unfold StorageTransaction.updated at hupdated
        rcases hstatus with hstatus | hstatus <;> simpa [hstatus, eq_comm] using hupdated
      subst hinterrupted
      refine ⟨rfl, rfl, rfl, rfl, rfl, rfl, rfl, ?_⟩
      intro stage hstage hne
      exact interrupted_lastKnownStage hstage hne
  · intro name now t hname ht hstatus
    rcases hvisited name (hread name t hname ht) with
      ⟨-, hidle⟩ | ⟨u, updated, metadata, hu, hupdated, hafter⟩
    · have hactive := hidle t ht
      simp [StorageTransaction.active, hstatus] at hactive
    · rw [ht] at hu
      cases hu
      refine ⟨_, hafter now, ?_⟩
      have hlost : updated = t.authorizationLost (clock.finished name) := by
        unfold StorageTransaction.updated at hupdated
        simpa [hstatus, eq_comm] using hupdated
      subst hlost
      exact ⟨rfl, rfl⟩
  · intro name hidle
    by_cases hmem : name ∈ names
    · rcases hvisited name hmem with ⟨hsame, -⟩ | ⟨t, updated, metadata, ht, hupdated, -⟩
      · exact hsame
      · have hactive := hidle ((globbed.mem_iff name).mp hmem).1 t ht
        rw [updated_eq_none_iff.mpr hactive] at hupdated
        cases hupdated
    · exact hkept name hmem

theorem settled_of_reconciled (h : (reconcileInterrupted lib clock names dir).2 = none)
    {clock' : Clock} {names' : List String}
    (globbed' : Globbed (reconcileInterrupted lib clock names dir).1 names') :
    reconcileInterrupted lib clock' names' (reconcileInterrupted lib clock names dir).1 =
      ((reconcileInterrupted lib clock names dir).1, none) := by
  apply sweep_fixed
  intro name hmem'
  obtain ⟨hname, hsome⟩ := (globbed'.mem_iff name).mp hmem'
  by_cases hmem : name ∈ names
  · exact reconcileFile_settled lawful (sweep_visited globbed.nodup h hmem) clock'
  · have hkept : (reconcileInterrupted lib clock names dir).1 name = dir name :=
      sweep_of_not_mem hmem dir
    rw [hkept] at hsome
    exact absurd ((globbed.mem_iff name).mpr ⟨hname, hsome⟩) hmem

/-- A restart recovers the directory exactly where every file can be read or skipped and every
active transaction can be written again. -/
theorem prepares_iff : Prepares lib clock names dir ↔ Recoverable lib clock dir := by
  rw [← reconciled_iff globbed]
  constructor
  · rintro ⟨dir', hrun, -, -⟩
    rw [hrun]
  · intro h
    refine ⟨(reconcileInterrupted lib clock names dir).1, Prod.ext rfl h, ?_, ?_⟩
    · exact recovers_of_reconciled lawful globbed h
    · intro clock' names' globbed'
      exact settled_of_reconciled lawful globbed h globbed'

end Lawful

/-! ### Samples -/

def executingSample : StorageTransaction where
  id := "transaction-1"
  operationId := "operation-1"
  planId := "plan-1"
  sessionId := "session-1"
  status := .executing
  createdAt := 0
  startedAt := none
  finishedAt := none
  checkpointId := some "checkpoint-1"
  authorizationChallengeId := some "challenge-1"
  lastKnownStage := some "apply"
  beforeLayoutSha256 := none
  afterLayoutSha256 := none
  verificationId := none
  reconciliationRequired := false
  errorCode := none
  metadata := []

def sameRecord (t u : StorageTransaction) : Bool :=
  t.id = u.id && t.operationId = u.operationId && t.planId = u.planId &&
    t.sessionId = u.sessionId && t.status = u.status && t.createdAt = u.createdAt &&
    t.startedAt = u.startedAt && t.finishedAt = u.finishedAt && t.checkpointId = u.checkpointId &&
    t.authorizationChallengeId = u.authorizationChallengeId &&
    t.lastKnownStage = u.lastKnownStage && t.beforeLayoutSha256 = u.beforeLayoutSha256 &&
    t.afterLayoutSha256 = u.afterLayoutSha256 && t.verificationId = u.verificationId &&
    t.reconciliationRequired = u.reconciliationRequired && t.errorCode = u.errorCode &&
    t.metadata.isEmpty && u.metadata.isEmpty

theorem eq_of_sameRecord {t u : StorageTransaction} (h : sameRecord t u = true) : t = u := by
  cases t
  cases u
  simp_all [sameRecord]

/-- The payload of the sample's file, which leaves fields to their defaults. -/
def executingPayload : Fields :=
  [("id", .str "transaction-1"), ("operation_id", .str "operation-1"), ("plan_id", .str "plan-1"),
    ("session_id", .str "session-1"), ("status", .str "EXECUTING"),
    ("created_at", .str "1970-01-01T00:00:00Z"), ("checkpoint_id", .str "checkpoint-1"),
    ("authorization_challenge_id", .str "challenge-1"), ("last_known_stage", .str "apply")]

def unknownPayload : Fields :=
  [("after_layout_sha256", .null), ("authorization_challenge_id", .str "challenge-1"),
    ("before_layout_sha256", .null), ("checkpoint_id", .str "checkpoint-1"),
    ("created_at", .str "1970-01-01T00:00:00Z"),
    ("error_code", .str "STORAGE_OPERATION_INTERRUPTED"), ("finished_at", .null),
    ("id", .str "transaction-1"), ("last_known_stage", .str "apply"), ("metadata", .obj []),
    ("operation_id", .str "operation-1"), ("plan_id", .str "plan-1"),
    ("reconciliation_required", .bool true), ("session_id", .str "session-1"),
    ("started_at", .null), ("status", .str "UNKNOWN"), ("verification_id", .null)]

def ascii (s : String) : List UInt8 := s.toList.map fun c => UInt8.ofNat c.toNat

theorem ascii_small {cs : List Char} (h : cs.length ≤ 100) :
    (ascii (String.ofList cs)).length ≤ 100 := by
  simpa [ascii] using h

theorem append_small {xs ys : List UInt8} {n : Nat} (hx : xs.length ≤ n) (hy : ys.length ≤ 100) :
    (xs ++ ys).length ≤ n + 100 := by
  rw [List.length_append]
  exact Nat.add_le_add hx hy

def executingText : List UInt8 :=
  ascii "\x7b\"id\":" ++ ascii "\"transaction-1\",\"operation_id\":\"operation-1\"," ++
    ascii "\"plan_id\":\"plan-1\",\"session_id\":\"session-1\",\"status\":\"EXECUTING\"," ++
    ascii "\"created_at\":\"1970-01-01T00:00:00Z\",\"checkpoint_id\":\"checkpoint-1\"," ++
    ascii "\"authorization_challenge_id\":\"challenge-1\",\"last_known_stage\":\"apply\"\x7d"

def unknownText : List UInt8 :=
  ascii "\x7b\"after" ++ ascii "_layout_sha256\":null," ++
    ascii "\"authorization_challenge_id\":\"challenge-1\",\"before_layout_sha256\":null," ++
    ascii "\"checkpoint_id\":\"checkpoint-1\",\"created_at\":\"1970-01-01T00:00:00Z\"," ++
    ascii "\"error_code\":\"STORAGE_OPERATION_INTERRUPTED\",\"finished_at\":null," ++
    ascii "\"id\":\"transaction-1\",\"last_known_stage\":\"apply\",\"metadata\":\x7b\x7d," ++
    ascii "\"operation_id\":\"operation-1\",\"plan_id\":\"plan-1\"," ++
    ascii "\"reconciliation_required\":true,\"session_id\":\"session-1\",\"started_at\":null," ++
    ascii "\"status\":\"UNKNOWN\",\"verification_id\":null\x7d"

/-- A library that knows the sample and its updated record.  A document that opens 100,000 lists is
too deep for it. -/
def sampleStore : StoreLibrary where
  loads bytes :=
    if bytes = executingText then .value (.obj executingPayload)
    else if bytes = unknownText ++ [10] then .value (.obj unknownPayload)
    else if 100000 ≤ (bytes.takeWhile (· = 91)).length then .tooDeep
    else .invalid
  modelValidate _ payload :=
    match payload.get? "status" with
    | some (.str "EXECUTING") => some executingSample
    | some (.str "UNKNOWN") => some executingSample.interrupted
    | _ => none
  dumps t := if sameRecord t executingSample.interrupted then some unknownText else none

theorem executingSample_valid : executingSample.Valid where
  sessionId := by decide
  lastKnownStage := by
    intro stage h
    exact Option.some.inj h ▸ by decide
  beforeLayout := by simp [executingSample]
  afterLayout := by simp [executingSample]
  errorCode := by simp [executingSample]

theorem executingSample_updated : executingSample.updated 0 = some executingSample.interrupted := rfl

theorem executingText_head : ∃ rest, executingText = 123 :: 34 :: 105 :: rest := ⟨_, rfl⟩

theorem unknownText_head : ∃ rest, unknownText = 123 :: 34 :: 97 :: rest := ⟨_, rfl⟩

theorem loads_executingText : sampleStore.loads executingText = .value (.obj executingPayload) := by
  simp only [sampleStore, if_true]

theorem loads_unknownText :
    sampleStore.loads (unknownText ++ [10]) = .value (.obj unknownPayload) := by
  have apart : unknownText ++ [10] ≠ executingText := by
    obtain ⟨rest, hrest⟩ := executingText_head
    obtain ⟨rest', hrest'⟩ := unknownText_head
    simp [hrest, hrest']
  simp only [sampleStore, if_neg apart, if_true]

theorem dumps_interrupted : sampleStore.dumps executingSample.interrupted = some unknownText := by
  have same : sameRecord executingSample.interrupted executingSample.interrupted = true := by decide
  simp only [sampleStore, same, if_true]

theorem loads_replicate (n : Nat) (h : 100000 ≤ n) :
    sampleStore.loads (List.replicate n 91) = .tooDeep := by
  obtain ⟨m, rfl⟩ : ∃ m, n = m + 1 := ⟨n - 1, by omega⟩
  have hexecuting : List.replicate (m + 1) 91 ≠ executingText := by
    obtain ⟨rest, hrest⟩ := executingText_head
    simp [hrest, List.replicate_succ]
  have hunknown : List.replicate (m + 1) 91 ≠ unknownText ++ [10] := by
    obtain ⟨rest, hrest⟩ := unknownText_head
    simp [hrest, List.replicate_succ]
  have deep : 100000 ≤ ((List.replicate (m + 1) (91 : UInt8)).takeWhile (· = 91)).length := by
    simpa using h
  simp only [sampleStore, if_neg hexecuting, if_neg hunknown, if_pos deep]

theorem loads_null : sampleStore.loads (ascii "nul") = .invalid := by
  have hexecuting : ascii "nul" ≠ executingText := by
    obtain ⟨rest, hrest⟩ := executingText_head
    simp [hrest, ascii]
  have hunknown : ascii "nul" ≠ unknownText ++ [10] := by
    obtain ⟨rest, hrest⟩ := unknownText_head
    simp [hrest, ascii]
  have shallow : ¬100000 ≤ ((ascii "nul").takeWhile (· = 91)).length := by
    simp [ascii]
  simp only [sampleStore, if_neg hexecuting, if_neg hunknown, if_neg shallow]

theorem sampleStore_lawful : sampleStore.Lawful where
  valid := by
    intro now payload t h
    simp only [sampleStore] at h
    split at h
    · exact Option.some.inj h ▸ executingSample_valid
    · exact Option.some.inj h ▸ updated_valid executingSample_valid executingSample_updated
    · cases h
  anytime := by
    intro now payload t h now'
    exact ⟨t.createdAt, h⟩
  loads_dumps := by
    intro t text _ h
    simp only [sampleStore] at h
    split at h
    · rename_i hsame
      rw [eq_of_sameRecord hsame, ← Option.some.inj h]
      exact ⟨_, [], loads_unknownText, fun _ => rfl⟩
    · cases h

def sampleClock : Clock := ⟨fun _ => 0, fun _ => 0⟩

/-- The file of the sample transaction, beside another file. -/
def sampleDirectory (other : List UInt8) : Directory := fun name =>
  if name = "other.json" then some (.file other)
  else if name = "operation-1.json" then some (.file executingText)
  else none

theorem sampleDirectory_globbed (other : List UInt8) :
    Globbed (sampleDirectory other) ["other.json", "operation-1.json"] where
  nodup := by decide
  mem_iff := by
    intro name
    simp only [List.mem_cons, List.not_mem_nil, or_false]
    constructor
    · rintro (rfl | rfl)
      · exact ⟨by decide, rfl⟩
      · exact ⟨by decide, rfl⟩
    · rintro ⟨-, h⟩
      unfold sampleDirectory at h
      split at h
      · exact Or.inl ‹_›
      · split at h
        · exact Or.inr ‹_›
        · cases h

theorem texts_small : executingText.length ≤ 12000000 ∧ unknownText.length < 12000000 := by
  have hexecuting : executingText.length ≤ 500 := by
    rw [executingText]
    iterate 4 refine append_small ?_ (ascii_small (by decide))
    exact ascii_small (by decide)
  have hunknown : unknownText.length ≤ 900 := by
    rw [unknownText]
    iterate 8 refine append_small ?_ (ascii_small (by decide))
    exact ascii_small (by decide)
  omega

theorem readTransaction_executing (other : List UInt8) (now : DateTime) :
    readTransaction sampleStore now (sampleDirectory other "operation-1.json") =
      some executingSample := by
  have small : ¬executingText.length > maxRecordBytes := Nat.not_lt.mpr texts_small.1
  have hentry : sampleDirectory other "operation-1.json" = some (.file executingText) := rfl
  have hread : read sampleStore (sampleDirectory other "operation-1.json") =
      .ok (some executingPayload) := by
    rw [hentry]
    simp only [read, if_neg small, loads_executingText]
  have hvalid : sampleStore.modelValidate now executingPayload = some executingSample := rfl
  rw [readTransaction, hread]
  exact hvalid

theorem sampleDirectory_eq {other : List UInt8} {name : String} {entry : Stored}
    (h : sampleDirectory other name = some entry) :
    name = "other.json" ∧ entry = .file other ∨
      name = "operation-1.json" ∧ entry = .file executingText := by
  unfold sampleDirectory at h
  split at h
  · exact Or.inl ⟨‹_›, (Option.some.inj h).symm⟩
  · split at h
    · exact Or.inr ⟨‹_›, (Option.some.inj h).symm⟩
    · cases h

/-- Beside a file that is not JSON, the sample transaction is recovered. -/
theorem prepares_beside_invalid :
    Recoverable sampleStore sampleClock (sampleDirectory (ascii "nul")) ∧
      Prepares sampleStore sampleClock ["other.json", "operation-1.json"]
        (sampleDirectory (ascii "nul")) := by
  have globbed := sampleDirectory_globbed (ascii "nul")
  have recoverable : Recoverable sampleStore sampleClock (sampleDirectory (ascii "nul")) := by
    intro name _
    constructor
    · intro content hentry _ hdeep
      rcases sampleDirectory_eq hentry with ⟨-, h⟩ | ⟨-, h⟩
      · rw [Stored.file.inj h, loads_null] at hdeep
        cases hdeep
      · rw [Stored.file.inj h, loads_executingText] at hdeep
        cases hdeep
    · intro t updated ht hupdated
      -- Only the file of the sample has a transaction.
      have hname : name = "operation-1.json" := by
        cases hentry : sampleDirectory (ascii "nul") name with
        | none => simp [hentry, readTransaction, read] at ht
        | some entry =>
            rcases sampleDirectory_eq hentry with ⟨-, h⟩ | ⟨h, -⟩
            · have hread : read sampleStore (some (.file (ascii "nul"))) = .ok none := by
                simp [read, loads_null]
              rw [hentry, h, readTransaction, hread] at ht
              cases ht
            · exact h
      subst hname
      rw [readTransaction_executing, Option.some.injEq] at ht
      subst ht
      obtain rfl := Option.some.inj hupdated
      exact ⟨unknownText, dumps_interrupted, texts_small.2⟩
  exact ⟨recoverable, (prepares_iff sampleStore_lawful globbed).mpr recoverable⟩

theorem raises_beside_deep {deep : List UInt8} (hdeep : sampleStore.loads deep = .tooDeep)
    (hsize : deep.length ≤ maxRecordBytes) :
    reconcileInterrupted sampleStore sampleClock ["other.json", "operation-1.json"]
      (sampleDirectory deep) = (sampleDirectory deep, some .recursion) := by
  have hentry : sampleDirectory deep "other.json" = some (.file deep) := if_pos rfl
  have hread : read sampleStore (some (.file deep)) = .error .recursion :=
    read_error_iff.mpr ⟨rfl, deep, rfl, hsize, hdeep⟩
  apply sweep_error
  rw [hentry]
  simp only [reconcileFile, hread, bind, Except.bind]

/-- Beside a file of 100,000 brackets the sample stays executing. -/
theorem executing_beside_deep :
    Globbed (sampleDirectory (List.replicate 100000 91)) ["other.json", "operation-1.json"] ∧
      reconcileInterrupted sampleStore sampleClock ["other.json", "operation-1.json"]
          (sampleDirectory (List.replicate 100000 91)) =
        (sampleDirectory (List.replicate 100000 91), some .recursion) ∧
      (∃ t, readTransaction sampleStore 0
          (sampleDirectory (List.replicate 100000 91) "operation-1.json") = some t ∧
        t.status = .executing) ∧
      ¬Prepares sampleStore sampleClock ["other.json", "operation-1.json"]
        (sampleDirectory (List.replicate 100000 91)) := by
  have hsize : (List.replicate 100000 (91 : UInt8)).length ≤ maxRecordBytes := by
    rw [List.length_replicate, maxRecordBytes]
    omega
  have hrun := raises_beside_deep (loads_replicate 100000 (Nat.le_refl _)) hsize
  refine ⟨sampleDirectory_globbed _, hrun, ⟨_, readTransaction_executing _ 0, rfl⟩, ?_⟩
  rintro ⟨dir', h, -, -⟩
  rw [hrun, Prod.mk.injEq] at h
  cases h.2

end Ares.Storage
