import Ares.Audit.Tamper

/-! Appends that fail on the disk.  A writer does not undo what a failed append has written, so the
ledger survives a failure only where it left no byte behind. -/

namespace Ares.Audit

open Data

variable {lib : LedgerLibrary}

/-! ### The condition -/

/-- The first `os.write` writes nothing. -/
def WriteResult.nothing (io : WriteResult) : Bool := io.written.head?.all (· = 0)

def WriteResult.completes (io : WriteResult) (encoded : Bytes) : Bool :=
  (writeAll io.written encoded []).1 && io.synced

/-- The disk takes the whole record of the call, which fits the loader's limit, or not a byte of
it. -/
def Harmless (lib : LedgerLibrary) (writer : AuditWriter) (call : AppendCall) : Prop :=
  ∀ accepted mac line, accept lib call.request = some accepted →
    encodeRecord lib writer.key (auditBody writer call accepted) = some (mac, line) →
      call.io.nothing = true ∨
        call.io.completes line = true ∧ line.length ≤ maxAuditMessageBytes * 2

/-- Every call of a run is harmless where it is made. -/
def HarmlessRun (lib : LedgerLibrary) (writer : AuditWriter) (disk : Disk) :
    List AppendCall → Prop
  | [] => True
  | call :: calls =>
      Harmless lib writer call ∧
        HarmlessRun lib (append lib writer disk call).2.1 (append lib writer disk call).2.2 calls

/-! ### One call -/

/-- The number and the MAC of a record. -/
def recordStamp (record : Record) : Option Int × Option Text :=
  (recordSequence record, recordMac record)

/-- The number and the MAC that a receipt acknowledges. -/
def AuditReceipt.stamp (receipt : AuditReceipt) : Option Int × Option Text :=
  (some (receipt.sequence : Int), some receipt.mac)

/-- The loader accepts the file with the records `records`, and comes to the state of the
writer. -/
structure Sound (lib : LedgerLibrary) (writer : AuditWriter) (ledger : Entry)
    (records : List Record) : Prop where
  regular : ledger ≠ .special
  closed : Closed ledger.content
  loads : loadTail lib writer.key ledger = .ok (writer.sequence, writer.previousMac)
  records : decoded lib ledger = some records

theorem writeAll_nothing {io : WriteResult} (h : io.nothing = true) {encoded : Bytes}
    (nonempty : encoded ≠ []) (file : Bytes) : writeAll io.written encoded file = (false, file) := by
  obtain ⟨b, view, rfl⟩ := List.exists_cons_of_ne_nil nonempty
  unfold WriteResult.nothing at h
  cases hw : io.written with
  | nil => rfl
  | cons n written =>
      simp only [hw, List.head?_cons, Option.all_some, decide_eq_true_eq] at h
      rw [writeAll, if_pos h]

theorem writeAll_fst (written : List Nat) (view file file' : Bytes) :
    (writeAll written view file).1 = (writeAll written view file').1 := by
  induction written generalizing view file file' with
  | nil => cases view <;> rfl
  | cons n written ih =>
      cases view with
      | nil => rfl
      | cons b view =>
          rw [writeAll, writeAll]
          split
          · rfl
          · exact ih _ _ _

theorem appendSync_nothing {io : WriteResult} (h : io.nothing = true) {encoded : Bytes}
    (nonempty : encoded ≠ []) {entry : Entry} (regular : entry ≠ .special) :
    appendSync io encoded entry = (false, .file entry.content) := by
  cases entry with
  | special => contradiction
  | absent | file => simp [appendSync, writeAll_nothing h nonempty]

theorem appendSync_completes {io : WriteResult} {encoded : Bytes} (h : io.completes encoded = true)
    {entry : Entry} (regular : entry ≠ .special) :
    appendSync io encoded entry = (true, .file (entry.content ++ encoded)) := by
  rw [WriteResult.completes, Bool.and_eq_true] at h
  have done : (appendSync io encoded entry).1 = true := by
    cases entry with
    | special => contradiction
    | absent | file =>
        rw [writeAll_fst io.written encoded [] _] at h
        simp only [appendSync, Bool.and_eq_true]
        exact h
  have result := (appendSync_done (show appendSync io encoded entry = (true, _) from
    Prod.ext done rfl)).2
  exact Prod.ext done result

/-- What one harmless call comes to. -/
inductive Settled (lib : LedgerLibrary) (writer : AuditWriter) (disk : Disk) (call : AppendCall) :
    Except AppendError AuditReceipt × AuditWriter × Disk → Prop
  | kept (e : AppendError) (ledger : Entry) (regular : ledger ≠ .special)
      (content : ledger.content = disk.ledger.content) :
      Settled lib writer disk call (.error e, writer, { disk with ledger })
  | recorded (accepted : Accepted) (mac : Digest) (line : Bytes) (receipt : AuditReceipt)
      (distinct : (Value.dict accepted.payload).distinct)
      (encoded : encodeRecord lib writer.key (auditBody writer call accepted) = some (mac, line))
      (fits : line.length ≤ maxAuditMessageBytes * 2)
      (sequence : receipt.sequence = writer.sequence + 1) (hmac : receipt.mac = mac.hexdigest) :
      Settled lib writer disk call
        (.ok receipt, ⟨writer.key, writer.sequence + 1, mac.hexdigest⟩,
          ⟨disk.key, .file (disk.ledger.content ++ line)⟩)

theorem append_settled (writer : AuditWriter) (disk : Disk) (call : AppendCall)
    (regular : disk.ledger ≠ .special) (harmless : Harmless lib writer call) :
    Settled lib writer disk call (append lib writer disk call) := by
  unfold append
  cases haccept : accept lib call.request with
  | none => exact .kept .invalidRequest disk.ledger regular rfl
  | some accepted =>
      cases hencode : encodeRecord lib writer.key (auditBody writer call accepted) with
      | none =>
          simp only [hencode]
          exact .kept .unserialisable disk.ledger regular rfl
      | some encoded =>
          obtain ⟨mac, line⟩ := encoded
          simp only [hencode]
          have nonempty : line ≠ [] := by
            obtain ⟨_, encoded, -, -, -, rfl⟩ := encodeRecord_some hencode
            simp
          rcases harmless accepted mac line haccept hencode with h | ⟨h, fits⟩
          · rw [appendSync_nothing h nonempty regular]
            exact .kept .diskFailed _ (by simp) rfl
          · rw [appendSync_completes h regular]
            exact .recorded accepted mac line _ (accept_distinct haccept) hencode fits rfl rfl

theorem decode_encodeRecord (lawful : lib.Lawful) {writer : AuditWriter} {call : AppendCall}
    {accepted : Accepted} {mac : Digest} {line : Bytes}
    (distinct : (Value.dict accepted.payload).distinct)
    (encoded : encodeRecord lib writer.key (auditBody writer call accepted) = some (mac, line)) :
    ∃ record, decode lib line = some record ∧
      recordStamp record = (some ((writer.sequence + 1 : Nat) : Int), some mac.hexdigest) := by
  have apart := mac_not_key writer call accepted
  have distinct' : (Value.dict (auditBody writer call accepted)).distinct :=
    auditBody_distinct distinct
  have whole := withMac_distinct mac apart distinct'
  have loads := loads_encodeRecord lawful encoded distinct' apart
  refine ⟨_, by rw [decode, loads], ?_⟩
  have numbered : (Text.ofString "sequence", Value.int (writer.sequence + 1 : Nat)) ∈
      withMac (auditBody writer call accepted) mac := by simp [withMac, auditBody]
  have stamped : (Text.ofString "mac", Value.str mac.hexdigest) ∈
      withMac (auditBody writer call accepted) mac := by simp [withMac]
  rw [recordStamp, recordSequence, recordMac, lookup_sorted whole numbered,
    lookup_sorted whole stamped]
  rfl

theorem Sound.append (lawful : lib.Lawful) {writer : AuditWriter} {disk : Disk} {call : AppendCall}
    {records : List Record} {result} (h : Sound lib writer disk.ledger records)
    (step : Settled lib writer disk call result) :
    ∃ added, Sound lib result.2.1 result.2.2.ledger (records ++ added) ∧
      added.map recordStamp = (Except.toOption result.1).toList.map AuditReceipt.stamp := by
  cases step with
  | kept e ledger regular content =>
      refine ⟨[], ⟨regular, ?_, ?_, ?_⟩, rfl⟩
      · show Closed ledger.content
        rw [content]
        exact h.closed
      · show loadTail lib writer.key ledger = _
        rw [loadTail_content regular, content, ← loadTail_content h.regular]
        exact h.loads
      · show decoded lib ledger = _
        rw [decoded, content, List.append_nil]
        exact h.records
  | recorded accepted mac line receipt distinct encoded fits sequence hmac =>
      obtain ⟨record, hrecord, hstamp⟩ := decode_encodeRecord lawful distinct encoded
      obtain ⟨lineClosed, lineOnly⟩ := encodeRecord_line lawful encoded
      have nonempty : line ≠ [] := by
        rintro rfl
        cases lineOnly
      have content : lines (disk.ledger.content ++ line) = lines disk.ledger.content ++ [line] := by
        rw [lines_append h.closed, lineOnly]
      have loaded := h.loads
      rw [loadTail_content h.regular] at loaded
      refine ⟨[record], ⟨by simp, lineClosed.append nonempty, ?_, ?_⟩, ?_⟩
      · rw [loadTail_content (by simp), Entry.content, content, foldlM_snoc loaded]
        exact loadRecord_encodeRecord lawful encoded (auditBody_distinct distinct)
          (mac_not_key writer call accepted) (by simp [auditBody]) (by simp [auditBody]) fits
      · have before := h.records
        rw [decoded] at before
        rw [decoded, Entry.content, content, List.mapM_append, before]
        simp [hrecord]
      · simp [hstamp, AuditReceipt.stamp, sequence, hmac, Except.toOption]

/-! ### Runs -/

theorem Sound.appendAll (lawful : lib.Lawful) {writer : AuditWriter} {disk : Disk}
    {records : List Record} (calls : List AppendCall) (h : Sound lib writer disk.ledger records)
    (harmless : HarmlessRun lib writer disk calls) :
    ∃ added, Sound lib (Audit.appendAll lib writer disk calls).writer
        (Audit.appendAll lib writer disk calls).disk.ledger (records ++ added) ∧
      added.map recordStamp =
        (Audit.appendAll lib writer disk calls).receipts.map AuditReceipt.stamp := by
  induction calls generalizing writer disk records with
  | nil => exact ⟨[], by rwa [List.append_nil], rfl⟩
  | cons call calls ih =>
      obtain ⟨first, hfirst, stamps⟩ :=
        h.append lawful (append_settled writer disk call h.regular harmless.1)
      obtain ⟨rest, hrest, stamps'⟩ := ih hfirst harmless.2
      refine ⟨first ++ rest, ?_, ?_⟩
      · rw [appendAll_cons, ← List.append_assoc]
        exact hrest
      · rw [List.map_append, stamps, stamps', appendAll_cons]
        simp only [LedgerRun.receipts, List.filterMap_cons]
        cases (Audit.append lib writer disk call).1 <;> rfl

theorem prepare_sound {random : Bytes} {directory disk : Disk} {writer : AuditWriter}
    (closed : Closed directory.ledger.content)
    (h : prepare lib random directory = .ok (writer, disk)) :
    ∃ records, Sound lib writer disk.ledger records ∧
      decoded lib directory.ledger = some records := by
  cases hkey : loadKey random directory.key with
  | error e => simp [prepare, hkey, bind, Except.bind] at h
  | ok key =>
      cases htail : loadTail lib key directory.ledger with
      | error e => simp [prepare, hkey, htail, bind, Except.bind] at h
      | ok tail =>
          obtain ⟨sequence, mac⟩ := tail
          simp [prepare, hkey, htail, bind, Except.bind] at h
          obtain ⟨rfl, rfl⟩ := h
          have regular : directory.ledger ≠ .special := by
            intro hspecial
            rw [hspecial] at htail
            cases htail
          obtain ⟨records, hrecords, -⟩ := linked_of_loadTail htail
          exact ⟨records, ⟨regular, closed, htail, hrecords⟩, hrecords⟩

/-- After every harmless run the loader accepts the file: the records that were there, numbered on
by exactly those that the run acknowledged. -/
theorem ledger_kept_of_harmless (lib : LedgerLibrary) (lawful : lib.Lawful) (random : Bytes)
    (directory disk : Disk) (writer : AuditWriter)
    (start : prepare lib random directory = .ok (writer, disk))
    (closed : Closed directory.ledger.content) (calls : List AppendCall)
    (harmless : HarmlessRun lib writer disk calls) :
    let run := appendAll lib writer disk calls
    ∃ records added, decoded lib directory.ledger = some records ∧
      loadTail lib writer.key run.disk.ledger =
        .ok (records.length + added.length, run.writer.previousMac) ∧
      decoded lib run.disk.ledger = some (records ++ added) ∧
      added.map recordStamp = run.receipts.map AuditReceipt.stamp ∧
      ∀ i record, (records ++ added)[i]? = some record →
        recordSequence record = some ((i + 1 : Nat) : Int) := by
  obtain ⟨records, sound, hrecords⟩ := prepare_sound closed start
  obtain ⟨added, sound', stamps⟩ := sound.appendAll lawful calls harmless
  have hkey : (appendAll lib writer disk calls).writer.key = writer.key := appendAll_key writer disk calls
  obtain ⟨all, hall, chain⟩ := linked_of_loadTail sound'.loads
  rw [sound'.records, Option.some.injEq] at hall
  subst hall
  have hlength := chain.length
  rw [List.length_append] at hlength
  refine ⟨records, added, hrecords, ?_, sound'.records, stamps, fun i record hi => ?_⟩
  · rw [hlength, ← hkey]
    exact sound'.loads
  · exact (chain.numbered i record hi).1

/-! ### Samples -/

/-- The check of `Harmless` on a concrete call. -/
def harmless (lib : LedgerLibrary) (writer : AuditWriter) (call : AppendCall) : Bool :=
  match accept lib call.request with
  | none => true
  | some accepted =>
      match encodeRecord lib writer.key (auditBody writer call accepted) with
      | none => true
      | some (_, line) =>
          call.io.nothing || call.io.completes line && line.length ≤ maxAuditMessageBytes * 2

theorem harmless_sound {writer : AuditWriter} {call : AppendCall}
    (h : harmless lib writer call = true) : Harmless lib writer call := by
  intro accepted mac line haccept hencode
  simpa [harmless, haccept, hencode] using h

/-- The sample call, on a disk that takes `written` bytes and then raises. -/
def failingCall (written : List Nat) (synced : Bool) : AppendCall :=
  { sampleCall "broker" with io := ⟨written, synced⟩ }

/-- A disk that is full for one call. -/
def fullDiskCalls : List AppendCall := [failingCall [] true, sampleCall "broker"]

theorem ledger_kept_of_harmless_run :
    (appendAll sampleLibrary sampleWriter sampleDisk fullDiskCalls).outcomes.map Except.isOk =
        [false, true] ∧
      ∃ added, loadTail sampleLibrary sampleKey
          (appendAll sampleLibrary sampleWriter sampleDisk fullDiskCalls).disk.ledger =
            .ok (added, (appendAll sampleLibrary sampleWriter sampleDisk
              fullDiskCalls).writer.previousMac) := by
  refine ⟨by decide +kernel, ?_⟩
  have closed : Closed (Entry.absent).content := .inl rfl
  have run : HarmlessRun sampleLibrary sampleWriter sampleDisk fullDiskCalls :=
    ⟨harmless_sound (by decide +kernel), harmless_sound (by decide +kernel), trivial⟩
  obtain ⟨records, added, -, loads, -⟩ := ledger_kept_of_harmless sampleLibrary
    sampleLibrary_lawful sampleKey ⟨.absent, .absent⟩ sampleDisk sampleWriter rfl closed
    fullDiskCalls run
  exact ⟨_, loads⟩

/-- The first record is written and not synced, and the second takes its number. -/
def unsyncedCalls : List AppendCall := [failingCall [100, 1000] false, sampleCall "broker"]

/-- A record that was written and not acknowledged makes the ledger unreadable. -/
theorem unsynced_record_rejected : ¬∀ (lib : LedgerLibrary) (random : Bytes)
    (directory disk : Disk) (writer : AuditWriter) (calls : List AppendCall), lib.Lawful →
    prepare lib random directory = .ok (writer, disk) → directory.ledger = .absent →
    (appendAll lib writer disk calls).outcomes.getLast?.any Except.isOk = true →
    ∃ n mac records, loadTail lib writer.key (appendAll lib writer disk calls).disk.ledger =
        .ok (n, mac) ∧
      decoded lib (appendAll lib writer disk calls).disk.ledger = some records ∧
      records.map recordStamp =
        (appendAll lib writer disk calls).receipts.map AuditReceipt.stamp := by
  intro claim
  obtain ⟨rejected, succeeded⟩ : loadTail sampleLibrary sampleKey
        (appendAll sampleLibrary sampleWriter sampleDisk unsyncedCalls).disk.ledger =
          .error (.osError "audit ledger chain invalid") ∧
      (appendAll sampleLibrary sampleWriter sampleDisk unsyncedCalls).outcomes.getLast?.any
        Except.isOk = true := by decide +kernel
  obtain ⟨n, mac, records, accepted, -⟩ := claim sampleLibrary sampleKey ⟨.absent, .absent⟩
    sampleDisk sampleWriter unsyncedCalls sampleLibrary_lawful rfl rfl succeeded
  rw [show sampleWriter.key = sampleKey from rfl, rejected] at accepted
  cases accepted

end Ares.Audit
