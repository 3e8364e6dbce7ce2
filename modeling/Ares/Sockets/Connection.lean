import Mathlib.Logic.Relation
import Ares.Data.Json
import Ares.Data.Stream

/-! One request over a Unix socket: a client that sends a line and reads the lines that come back, and
a server that reads the line, may send notes while it works on it, and sends a last message.  Bytes
come in pieces of any size, either side may be late or cancelled, and the connection may break. -/

namespace Ares.Sockets

open Data

/-- `json.dumps(message).encode()`, and `json.loads` of the bytes of a line. -/
structure Codec where
  dumps : Fields → Option (List UInt8)
  loads : List UInt8 → Option Json
  single : ∀ {m b}, dumps m = some b → newline ∉ b
  loads_line : ∀ {m b}, dumps m = some b → loads (frame b) = some (.obj m)
  loads_text : ∀ {m b}, dumps m = some b → loads b = some (.obj m)
  loads_part : ∀ {m b l}, dumps m = some b → l <+: b → l ≠ b → loads l = none

/-- The default limit of `asyncio.StreamReader`. -/
def streamLimit : Nat := 65536

/-- Why a request came to no payload. -/
inductive Raised
  | forbidden
  | unavailable
  /-- `json.dumps` raised. -/
  | unencodable
  | requestTooLarge
  | timeout
  | os
  /-- `readline` raised. -/
  | overrun
  | disconnected
  | responseTooLarge
  | invalid
  | reported (code : Option String)
  | handler
  | cancelled
deriving DecidableEq

/-- The end of the work on a request: its payload, or the code of its error. -/
abbrev Reply := Except String Fields

/-- What a client makes of a message. -/
inductive Verdict
  | handle
  | done (r : Except Raised Fields)

/-- What the clients and their servers differ in. -/
structure Service where
  forbidden : List String
  maxRequest : Option Nat
  maxResponse : Nat
  maxReceived : Nat
  maxSent : Option Nat
  retries : Bool
  /-- The code for a request that the server cannot read, and for a failed `send`. -/
  failed : String
  final : Reply → Fields
  sends : Fields → Bool
  replies : Fields → Bool
  verdict : Fields → Verdict
  verdict_ok : ∀ p, replies p = true → verdict (final (.ok p)) = .done (.ok p)
  verdict_error : ∀ code, ∃ code', verdict (final (.error code)) = .done (.error (.reported code'))
  verdict_sends : ∀ m, sends m = true → verdict m = .handle

inductive Client
  | idle
  | connected
  | reading
  | handling (message : Fields)
  | closing (r : Except Raised Fields)
  | ended (r : Except Raised Fields)

/-- What the request has come to. -/
def Client.outcome : Client → Option (Except Raised Fields)
  | closing r | ended r => some r
  | _ => none

inductive Server
  | absent
  | accepted
  | working (request : Fields)
  | answering (r : Reply)
  | closed

structure Connection where
  client : Client
  server : Server
  up : Pipe
  down : Pipe
  handled : List Fields
  sent : List Fields
  received : Option Fields
  finished : Option Reply
  broken : Bool
  aborted : Bool

def Connection.start : Connection where
  client := .idle
  server := .absent
  up := .empty
  down := .empty
  handled := []
  sent := []
  received := none
  finished := none
  broken := false
  aborted := false

namespace Service

variable (S : Service) (c : Codec)

/-- A message fits into what the server sends. -/
def fits (text : List UInt8) : Bool := S.maxSent.all fun maximum => text.length ≤ maximum

def onLine (line : List UInt8) (k : Connection) : Connection :=
  if line = [] then { k with client := .closing (.error .disconnected) }
  else if S.maxResponse < line.length then { k with client := .closing (.error .responseTooLarge) }
  else
    match c.loads line with
    | some (.obj m) =>
      match S.verdict m with
      | .handle => { k with client := .handling m, handled := k.handled ++ [m] }
      | .done r => { k with client := .closing r }
    | _ => { k with client := .closing (.error .invalid) }

def onRequest (line : List UInt8) (k : Connection) : Connection :=
  if line = [] ∨ S.maxReceived < line.length then { k with server := .answering (.error S.failed) }
  else
    match c.loads line with
    | some (.obj m) => { k with server := .working m, received := some m }
    | _ => { k with server := .answering (.error S.failed) }

def refuses (request : Fields) : Bool := request.any fun field => S.forbidden.contains field.1

def quit (e : Raised) (k : Connection) : Connection := { k with client := .closing (.error e) }

def emit (m : Fields) (text : List UInt8) (k : Connection) : Connection :=
  { k with down := k.down.write (frame text), sent := k.sent ++ [m] }

/-- One step of the client. -/
inductive ClientStep (request : Fields) (k : Connection) : Connection → Prop
  | forbidden (at_ : k.client = .idle) (h : S.refuses request = true) :
      ClientStep request k { k with client := .ended (.error .forbidden) }
  | unavailable (at_ : k.client = .idle) (h : S.refuses request = false) :
      ClientStep request k { k with client := .ended (.error .unavailable) }
  | connect (at_ : k.client = .idle) (h : S.refuses request = false) :
      ClientStep request k { k with client := .connected, server := .accepted }
  | unencodable (at_ : k.client = .connected) (h : c.dumps request = none) :
      ClientStep request k (quit .unencodable k)
  | requestTooLarge (at_ : k.client = .connected) (text : List UInt8) (maximum : Nat)
      (h : c.dumps request = some text) (hmax : S.maxRequest = some maximum)
      (long : maximum < text.length) : ClientStep request k (quit .requestTooLarge k)
  | write (at_ : k.client = .connected) (text : List UInt8) (h : c.dumps request = some text)
      (short : ∀ maximum, S.maxRequest = some maximum → text.length ≤ maximum) :
      ClientStep request k { k with client := .reading, up := k.up.write (frame text) }
  | line (at_ : k.client = .reading) (data : List UInt8) (r : StreamReader)
      (h : k.down.reader.readline streamLimit = (.line data, r)) :
      ClientStep request k (S.onLine c data { k with down := { k.down with reader := r } })
  | overrun (at_ : k.client = .reading) (r : StreamReader)
      (h : k.down.reader.readline streamLimit = (.overrun, r)) :
      ClientStep request k (quit .overrun { k with down := { k.down with reader := r } })
  | timeout (at_ : k.client = .reading) : ClientStep request k (quit .timeout k)
  | handled (m : Fields) (at_ : k.client = .handling m) :
      ClientStep request k { k with client := .reading }
  | handler (m : Fields) (at_ : k.client = .handling m) : ClientStep request k (quit .handler k)
  | os (at_ : k.client = .connected ∨ k.client = .reading) :
      ClientStep request k (quit .os { k with broken := true })
  | cancelled (at_ : ∀ r, k.client ≠ .ended r) : ClientStep request k (quit .cancelled k)
  | closed (r : Except Raised Fields) (at_ : k.client = .closing r) :
      ClientStep request k { k with client := .ended r }
  | unclosed (r : Except Raised Fields) (at_ : k.client = .closing r) :
      ClientStep request k { k with client := .ended (.error .os), broken := true }

/-- One step of the server. -/
inductive ServerStep (k : Connection) : Connection → Prop
  | line (at_ : k.server = .accepted) (data : List UInt8) (r : StreamReader)
      (h : k.up.reader.readline streamLimit = (.line data, r)) :
      ServerStep k (S.onRequest c data { k with up := { k.up with reader := r } })
  | overrun (at_ : k.server = .accepted) (r : StreamReader)
      (h : k.up.reader.readline streamLimit = (.overrun, r)) :
      ServerStep k { k with
        up := { k.up with reader := r }, server := .answering (.error S.failed) }
  | timeout (at_ : k.server = .accepted) :
      ServerStep k { k with server := .answering (.error S.failed) }
  | send (request : Fields) (at_ : k.server = .working request) (m : Fields) (text : List UInt8)
      (hm : S.sends m = true) (h : c.dumps m = some text) (short : S.fits text = true) :
      ServerStep k (emit m text k)
  | finish (request : Fields) (at_ : k.server = .working request) (r : Reply)
      (h : ∀ p, r = .ok p → S.replies p = true) :
      ServerStep k { k with server := .answering r, finished := some r }
  | reply (r : Reply) (at_ : k.server = .answering r) (text : List UInt8)
      (h : c.dumps (S.final r) = some text) (short : S.fits text = true) :
      ServerStep k { emit (S.final r) text k with server := .closed }
  /-- The last message cannot be encoded or is too large, or was written and the wait for it
  raises. -/
  | retry (p : Fields) (at_ : k.server = .answering (.ok p)) (h : S.retries = true)
      (unsent : ∀ text, c.dumps (S.final (.ok p)) = some text → S.fits text = false) :
      ServerStep k { k with server := .answering (.error S.failed) }
  | undrained (p : Fields) (at_ : k.server = .answering (.ok p)) (h : S.retries = true)
      (text : List UInt8) (ht : c.dumps (S.final (.ok p)) = some text)
      (short : S.fits text = true) :
      ServerStep k { emit (S.final (.ok p)) text k with server := .answering (.error S.failed) }
  | abort (at_ : k.server ≠ .absent ∧ k.server ≠ .closed) :
      ServerStep k { k with server := .closed, aborted := true }

end Service

/-- One step of the network. -/
inductive NetworkStep (k : Connection) : Connection → Prop
  | feedUp (n : Nat) (open_ : k.up.reader.eof = false) (h : k.up.fed + n ≤ k.up.written.length) :
      NetworkStep k { k with up := k.up.feed n }
  | feedDown (n : Nat) (open_ : k.down.reader.eof = false)
      (h : k.down.fed + n ≤ k.down.written.length) : NetworkStep k { k with down := k.down.feed n }
  | endUp (r : Except Raised Fields) (at_ : k.client.outcome = some r)
      (h : k.up.fed = k.up.written.length) : NetworkStep k { k with up := k.up.finish }
  | endDown (at_ : k.server = .closed) (h : k.down.fed = k.down.written.length) :
      NetworkStep k { k with down := k.down.finish }
  | breakUp : NetworkStep k { k with up := k.up.finish, broken := true }
  | breakDown : NetworkStep k { k with down := k.down.finish, broken := true }

/-- One step of the connection. -/
inductive Step (S : Service) (c : Codec) (request : Fields) (k : Connection) : Connection → Prop
  | client {k' : Connection} (h : S.ClientStep c request k k') : Step S c request k k'
  | server {k' : Connection} (h : S.ServerStep c k k') : Step S c request k k'
  | network {k' : Connection} (h : NetworkStep k k') : Step S c request k k'

def Reachable (S : Service) (c : Codec) (request : Fields) : Connection → Prop :=
  Relation.ReflTransGen (Step S c request) .start

/-! ### The services -/

/-- `message.get("type")`. -/
def kind (m : Fields) : Option String :=
  match m.get? "type" with
  | some (.str s) => some s
  | _ => none

/-- `code if isinstance(code, str)`. -/
def textCode (m : Fields) : Option String :=
  match m.get? "code" with
  | some (.str s) => some s
  | _ => none

/-- The payload of a message, where it is an object. -/
def payload (m : Fields) : Except Raised Fields :=
  match m.get? "payload" with
  | some (.obj p) => .ok p
  | _ => .error .invalid

/-- What a `_request` of the executors makes of a message. -/
def executorVerdict (m : Fields) : Verdict :=
  if kind m = some "error" then .done (.error (.reported (textCode m)))
  else if kind m = some "result" then .done (payload m)
  else .handle

def brokerFinal : Reply → Fields
  | .ok p => [("type", .str "result"), ("payload", .obj p)]
  | .error code => [("type", .str "error"), ("code", .str code)]

def noteKinds : List String := ["authorization_requested", "progress", "entry", "stage"]

def executor (forbidden : List String) (maxRequest maxResponse : Nat) : Service where
  forbidden
  maxRequest := some maxRequest
  maxResponse
  maxReceived := 4000000
  maxSent := some 128000000
  retries := true
  failed := "BROKER_FAILED"
  final := brokerFinal
  sends m := (kind m).any noteKinds.contains
  replies _ := true
  verdict := executorVerdict
  verdict_ok _ _ := rfl
  verdict_error code := ⟨some code, rfl⟩
  verdict_sends m h := by
    obtain ⟨s, hs, hmem⟩ := (Option.any_eq_true _ _).mp h
    have hmem : s ∈ noteKinds := List.elem_iff.mp hmem
    have hne : s ≠ "error" ∧ s ≠ "result" :=
      ⟨fun heq => absurd (heq ▸ hmem) (by decide), fun heq => absurd (heq ▸ hmem) (by decide)⟩
    rw [executorVerdict, hs, if_neg fun heq => hne.1 (Option.some.inj heq),
      if_neg fun heq => hne.2 (Option.some.inj heq)]

/-- `UnixBrokerStorageExecutor._request`. -/
def storageExecutor : Service := executor [] 12000000 24000000

/-- `UnixBrokerBackupExecutor._request`. -/
def backupExecutor : Service := executor [] 4000000 128000000

/-- `UnixBrokerFilesystemExecutor._request`. -/
def filesystemExecutor : Service := executor [] 2000000 8000000

/-- `UnixBrokerTerminalExecutor._request`. -/
def terminalExecutor : Service :=
  executor ["command", "argv", "shell", "executable", "script", "device", "mountpoint", "flags",
    "environment"] 4000000 128000000

/-- The response has `"ok": true`. -/
def isOk (m : Fields) : Bool :=
  match m.get? "ok" with
  | some (.bool b) => b
  | _ => false

/-- `_request` of the consent clients, and `serve_consent_agent`. -/
def consentService : Service where
  forbidden := []
  maxRequest := none
  maxResponse := 512000
  maxReceived := 512000
  maxSent := none
  retries := false
  failed := "AUTHORIZATION_FAILED"
  final
    | .ok p => [("ok", .bool true), ("payload", .obj p)]
    | .error code => [("ok", .bool false), ("code", .str code)]
  sends _ := false
  replies _ := true
  verdict m := .done (if isOk m then payload m else .error (.reported (textCode m)))
  verdict_ok _ _ := rfl
  verdict_error code := ⟨some code, rfl⟩
  verdict_sends _ h := absurd h Bool.false_ne_true

/-- `UnixAuditLedgerClient.append`, and `serve_audit_writer`; `validate` says which receipts
`AuditReceipt` takes. -/
def auditService (validate : Fields → Bool) : Service where
  forbidden := []
  maxRequest := some 256000
  maxResponse := 4096
  maxReceived := 256000
  maxSent := none
  retries := false
  failed := ""
  final
    | .ok receipt => [("ok", .bool true), ("receipt", .obj receipt)]
    | .error _ => [("ok", .bool false)]
  sends _ := false
  replies := validate
  verdict m := .done <|
    if isOk m then
      match m.get? "receipt" with
      | some (.obj receipt) => if validate receipt then .ok receipt else .error .invalid
      | _ => .error .invalid
    else .error (.reported none)
  verdict_ok receipt h := by
    show Verdict.done (if validate receipt then _ else _) = _
    rw [if_pos h]
  verdict_error _ := ⟨none, rfl⟩
  verdict_sends _ h := absurd h Bool.false_ne_true

end Ares.Sockets
