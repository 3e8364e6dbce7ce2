import Ares.Data.Value

/-! The audit writer: the chain of MACed records that it appends to `ledger.jsonl`, and the replay
of that file when a writer starts.  HMAC, `str.casefold` and the JSON codec are parameters. -/

namespace Ares.Audit

open Data

abbrev Bytes := List UInt8

def maxAuditMessageBytes : Nat := 256000

def newline : UInt8 := 10

/-- The output of SHA-256. -/
structure Digest where
  bytes : Bytes
  length_eq : bytes.length = 32

def hexDigit (n : Nat) : CodePoint :=
  if n < 10 then Fin.ofNat _ (48 + n) else Fin.ofNat _ (87 + n)

def Digest.hexdigest (d : Digest) : Text :=
  d.bytes.flatMap fun b => [hexDigit (b.toNat / 16), hexDigit (b.toNat % 16)]

structure LedgerLibrary where
  /-- `str.casefold`. -/
  casefold : Text → Text
  hmacSha256 : Bytes → Bytes → Digest
  /-- The UTF-8 bytes of `json.dumps` with the keys in the order they have, or none where the
  encoding raises. -/
  text : Value → Option Bytes
  /-- `json.loads`, or none where it raises. -/
  loads : Bytes → Option Value

/-- `json.loads` inverts `json.dumps`, which never leaves a newline in the text. -/
structure LedgerLibrary.Lawful (lib : LedgerLibrary) : Prop where
  loads_text : ∀ {value bytes}, value.distinct → value.serialisable false →
    lib.text value = some bytes → lib.loads (bytes ++ [newline]) = some value
  newline_not_mem : ∀ {value bytes}, lib.text value = some bytes → newline ∉ bytes

/-- `json.dumps(value, sort_keys=True, allow_nan=allowNan).encode("utf-8")`. -/
def dumps (lib : LedgerLibrary) (allowNan : Bool) (value : Value) : Option Bytes :=
  if value.serialisable allowNan then lib.text value.sortKeys else none

/-- `^[a-f0-9]{64}$`. -/
def MacPattern (mac : Text) : Prop :=
  mac.length = 64 ∧ ∀ c ∈ mac, 97 ≤ c.val ∧ c.val ≤ 102 ∨ 48 ≤ c.val ∧ c.val ≤ 57

structure AuditReceipt where
  sequence : Nat
  mac : Text
  one_le_sequence : 1 ≤ sequence
  macPattern : MacPattern mac

theorem hexDigit_range {n : Nat} (h : n < 16) :
    97 ≤ (hexDigit n).val ∧ (hexDigit n).val ≤ 102 ∨ 48 ≤ (hexDigit n).val ∧ (hexDigit n).val ≤ 57 := by
  unfold hexDigit
  split <;> simp only [Fin.ofNat] <;> omega

theorem Digest.hexdigest_pattern (d : Digest) : MacPattern d.hexdigest := by
  constructor
  · have pairs : d.hexdigest.length = d.bytes.length * 2 := by
      simp [Digest.hexdigest, List.length_flatMap]
    rw [pairs, d.length_eq]
  · intro c hc
    obtain ⟨b, -, hb⟩ := List.mem_flatMap.mp hc
    have bound := b.toNat_lt
    rcases List.mem_cons.mp hb with rfl | hb
    · exact hexDigit_range (by omega)
    · rw [List.mem_singleton.mp hb]
      exact hexDigit_range (by omega)

/-! ### Files -/

inductive Entry
  | absent
  | special
  | file (content : Bytes)

structure Disk where
  key : Entry
  ledger : Entry

def Entry.content : Entry → Bytes
  | file content => content
  | absent | special => []

def lines : Bytes → List Bytes
  | [] => []
  | b :: rest =>
      if b = newline then [b] :: lines rest
      else
        match lines rest with
        | [] => [[b]]
        | line :: others => (b :: line) :: others

/-- What the operating system does with one record: the counts that `os.write` returns, the call
after the last raising, and whether the data could be synced. -/
structure WriteResult where
  written : List Nat
  synced : Bool

/-- The loop of `_append_sync`: true when the view has been written to its end. -/
def writeAll : List Nat → Bytes → Bytes → Bool × Bytes
  | _, [], file => (true, file)
  | [], _ :: _, file => (false, file)
  | n :: written, b :: view, file =>
      if n = 0 then (false, file)
      else writeAll written ((b :: view).drop n) (file ++ (b :: view).take n)

def appendSync (io : WriteResult) (encoded : Bytes) : Entry → Bool × Entry
  | .special => (false, .special)
  | entry =>
      let (done, content) := writeAll io.written encoded entry.content
      (done && io.synced, .file content)

/-! ### Appending -/

def boundedString (value : Option Value) (maximum : Nat) : Option Text :=
  match value with
  | some (.str s) => if s = [] ∨ s.length > maximum ∨ (0 : CodePoint) ∈ s then none else some s
  | _ => none

def sensitive : List Text :=
  ["password", "secret", "token", "key", "authorization"].map Text.ofString

mutual

def redactPayload (lib : LedgerLibrary) : List (Text × Value) → List (Text × Value)
  | [] => []
  | (key, item) :: fields =>
      (key, if lib.casefold key ∈ sensitive then Value.lit "[REDACTED]" else safeAuditValue lib item)
        :: redactPayload lib fields

def safeAuditValue (lib : LedgerLibrary) : Value → Value
  | .str s => .str (s.take 1024)
  | .bool b => .bool b
  | .int i => .int i
  | .float bits => .float bits
  | .none => .none
  | .list items => .list ((safeAuditItems lib items).take 64)
  | .dict fields => .dict (redactPayload lib fields)
  | .other => .none

def safeAuditItems (lib : LedgerLibrary) : List Value → List Value
  | [] => []
  | item :: items => safeAuditValue lib item :: safeAuditItems lib items

end

/-- A request dictionary. -/
structure AuditRequest where
  fields : List (Text × Value)
  distinct : (Value.dict fields).distinct

def AuditRequest.get (request : AuditRequest) (key : String) : Option Value :=
  request.fields.lookup (Text.ofString key)

/-- A request that passed the checks, with its payload redacted. -/
structure Accepted where
  eventType : Text
  source : Text
  correlationId : Text
  sessionId : Text
  payload : List (Text × Value)

def accept (lib : LedgerLibrary) (request : AuditRequest) : Option Accepted := do
  let eventType ← boundedString (request.get "event_type") 96
  let source ← boundedString (request.get "source") 96
  let correlationId ← boundedString (request.get "correlation_id") 128
  let sessionId ← boundedString (request.get "session_id") 128
  match request.get "payload" with
  | some (.dict payload) =>
      some ⟨eventType, source, correlationId, sessionId, redactPayload lib payload⟩
  | _ => none

structure AuditWriter where
  key : Bytes
  sequence : Nat
  previousMac : Text

/-- One call of `append`, with the reading of the clock and the writes that it meets. -/
structure AppendCall where
  request : AuditRequest
  peerUid : Int
  timestamp : Text
  io : WriteResult

inductive AppendError
  | invalidRequest
  | unserialisable
  | diskFailed
deriving DecidableEq

def auditBody (writer : AuditWriter) (call : AppendCall) (accepted : Accepted) :
    List (Text × Value) :=
  [ (Text.ofString "sequence", .int (writer.sequence + 1 : Nat)),
    (Text.ofString "previous_mac", .str writer.previousMac),
    (Text.ofString "peer_uid", .int call.peerUid),
    (Text.ofString "source", .str accepted.source),
    (Text.ofString "timestamp", .str call.timestamp),
    (Text.ofString "correlation_id", .str accepted.correlationId),
    (Text.ofString "session_id", .str accepted.sessionId),
    (Text.ofString "event_type", .str accepted.eventType),
    (Text.ofString "payload", .dict accepted.payload) ]

def encodeRecord (lib : LedgerLibrary) (key : Bytes) (body : List (Text × Value)) :
    Option (Digest × Bytes) := do
  let bodyBytes ← dumps lib false (.dict body)
  let mac := lib.hmacSha256 key bodyBytes
  let record := body ++ [(Text.ofString "mac", .str mac.hexdigest)]
  let encoded ← dumps lib true (.dict record)
  some (mac, encoded ++ [newline])

def append (lib : LedgerLibrary) (writer : AuditWriter) (disk : Disk) (call : AppendCall) :
    Except AppendError AuditReceipt × AuditWriter × Disk :=
  match accept lib call.request with
  | none => (.error .invalidRequest, writer, disk)
  | some accepted =>
      match encodeRecord lib writer.key (auditBody writer call accepted) with
      | none => (.error .unserialisable, writer, disk)
      | some (mac, encoded) =>
          match appendSync call.io encoded disk.ledger with
          | (false, ledger) => (.error .diskFailed, writer, { disk with ledger := ledger })
          | (true, ledger) =>
              (.ok
                { sequence := writer.sequence + 1
                  mac := mac.hexdigest
                  one_le_sequence := Nat.le_add_left 1 _
                  macPattern := mac.hexdigest_pattern },
                { writer with sequence := writer.sequence + 1, previousMac := mac.hexdigest },
                { disk with ledger := ledger })

/-! ### Starting a writer -/

inductive LoadError
  | osError (message : String)
  /-- `json.loads` or `json.dumps` raises. -/
  | jsonError
  /-- `hmac.compare_digest` raises on a string that is not ASCII. -/
  | typeError
deriving DecidableEq

def zeroMac : Text := List.replicate 64 (CodePoint.ofChar '0')

/-- `isinstance(value, int)`, with the number; a bool is one. -/
def asInt : Value → Option Int
  | .int i => some i
  | .bool b => some (if b then 1 else 0)
  | _ => none

def isText (value : Option Value) (s : Text) : Bool :=
  match value with
  | some (.str t) => t = s
  | _ => false

/-- `record.pop(key)`, the rest of the record. -/
def without (key : Text) (record : List (Text × Value)) : List (Text × Value) :=
  record.filter fun field => field.1 ≠ key

def checkSequence (sequence : Nat) (mac : Text) (record : List (Text × Value)) :
    Except LoadError (Nat × Text) :=
  match (record.lookup (Text.ofString "sequence")).bind asInt with
  | none => .error (.osError "audit ledger sequence invalid")
  | some current =>
      if current = (sequence + 1 : Nat) then .ok (sequence + 1, mac)
      else .error (.osError "audit ledger sequence invalid")

def checkMac (lib : LedgerLibrary) (key : Bytes) (sequence : Nat) (mac : Text)
    (record : List (Text × Value)) : Except LoadError (Nat × Text) :=
  match dumps lib false (.dict record) with
  | none => .error .jsonError
  | some body =>
      let expected := (lib.hmacSha256 key body).hexdigest
      if mac.any (128 ≤ ·.val) then .error .typeError
      else if mac ≠ expected then .error (.osError "audit ledger MAC invalid")
      else checkSequence sequence mac record

/-- One turn of the loop of `_load_tail`, on the sequence number and MAC of the record before. -/
def loadRecord (lib : LedgerLibrary) (key : Bytes) (tail : Nat × Text) (raw : Bytes) :
    Except LoadError (Nat × Text) :=
  if raw.length > maxAuditMessageBytes * 2 then
    .error (.osError "audit ledger record too large")
  else
    match lib.loads raw with
    | none => .error .jsonError
    | some (.dict record) =>
        match record.lookup (Text.ofString "mac") with
        | some (.str mac) =>
            let rest := without (Text.ofString "mac") record
            if isText (rest.lookup (Text.ofString "previous_mac")) tail.2 then
              checkMac lib key tail.1 mac rest
            else .error (.osError "audit ledger chain invalid")
        | _ => .error (.osError "audit ledger chain invalid")
    | some _ => .error (.osError "audit ledger record invalid")

def loadTail (lib : LedgerLibrary) (key : Bytes) : Entry → Except LoadError (Nat × Text)
  | .absent => .ok (0, zeroMac)
  | .special => .error (.osError "audit ledger is unsafe")
  | .file content => (lines content).foldlM (loadRecord lib key) (0, zeroMac)

/-- The key file, created from `random` where there is none. -/
def loadKey (random : Bytes) : Entry → Except LoadError Bytes
  | .special => .error (.osError "audit key is unsafe")
  | .file key =>
      if key.length = 32 then .ok key else .error (.osError "audit key has invalid length")
  | .absent =>
      if random.length = 32 then .ok random else .error (.osError "audit key has invalid length")

/-- `AuditWriter(directory).prepare()`; `random` is what `os.urandom` returns. -/
def prepare (lib : LedgerLibrary) (random : Bytes) (disk : Disk) :
    Except LoadError (AuditWriter × Disk) := do
  let key ← loadKey random disk.key
  let (sequence, previousMac) ← loadTail lib key disk.ledger
  .ok ({ key, sequence, previousMac }, { disk with key := .file key })

/-! ### Histories -/

structure LedgerRun where
  outcomes : List (Except AppendError AuditReceipt)
  writer : AuditWriter
  disk : Disk

def appendAll (lib : LedgerLibrary) (writer : AuditWriter) (disk : Disk) :
    List AppendCall → LedgerRun
  | [] => ⟨[], writer, disk⟩
  | call :: calls =>
      let (outcome, writer, disk) := append lib writer disk call
      let run := appendAll lib writer disk calls
      { run with outcomes := outcome :: run.outcomes }

def LedgerRun.receipts (run : LedgerRun) : List AuditReceipt :=
  run.outcomes.filterMap Except.toOption

/-- The calls that one writer process serves. -/
structure Session where
  random : Bytes
  calls : List AppendCall

/-- Writer processes one after the other on the same directory. -/
def sessions (lib : LedgerLibrary) (disk : Disk) :
    List Session → Except LoadError (List (Except AppendError AuditReceipt) × Disk)
  | [] => .ok ([], disk)
  | session :: rest => do
      let (writer, disk) ← prepare lib session.random disk
      let run := appendAll lib writer disk session.calls
      let (outcomes, disk) ← sessions lib run.disk rest
      .ok (run.outcomes ++ outcomes, disk)

end Ares.Audit
