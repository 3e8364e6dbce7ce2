import Ares.Audit.Ledger
import Ares.Data.Plain

/-! What the audit writer appends is what a later writer loads: every history of requests leaves a
file from which a fresh writer recovers the state of the one that wrote it. -/

namespace Ares.Audit

open Data

variable {lib : LedgerLibrary}

/-! ### Lines -/

/-- The file ends at the end of a line. -/
def Closed (content : Bytes) : Prop := content = [] ∨ ∃ body, content = body ++ [newline]

theorem Closed.tail {b : UInt8} {content : Bytes} (closed : Closed (b :: content)) :
    Closed content := by
  rcases closed with h | ⟨body, h⟩
  · cases h
  · cases body with
    | nil => simp_all [Closed]
    | cons _ body =>
        injection h with _ h
        exact Or.inr ⟨body, h⟩

theorem lines_append {content : Bytes} (closed : Closed content) (rest : Bytes) :
    lines (content ++ rest) = lines content ++ lines rest := by
  induction content with
  | nil => rfl
  | cons b content ih =>
      have tail := ih closed.tail
      by_cases hb : b = newline
      · simp [lines, hb, tail]
      · have nonempty : lines content ≠ [] := by
          rcases closed with h | ⟨body, h⟩
          · cases h
          · cases content with
            | nil =>
                cases body with
                | nil => simp_all
                | cons _ body => simp at h
            | cons c content =>
                simp only [lines]
                split
                · simp
                · split <;> simp
        obtain ⟨line, others, hlines⟩ := List.exists_cons_of_ne_nil nonempty
        simp [lines, hb, tail, hlines]

theorem lines_line {body : Bytes} (h : newline ∉ body) :
    lines (body ++ [newline]) = [body ++ [newline]] := by
  induction body with
  | nil => rfl
  | cons b body ih =>
      have hb : b ≠ newline := fun hb => h (by simp [hb])
      have rest := ih fun hm => h (List.mem_cons_of_mem b hm)
      simp [lines, hb, rest]

theorem writeAll_done {written : List Nat} {view file content : Bytes}
    (h : writeAll written view file = (true, content)) : content = file ++ view := by
  induction written generalizing view file with
  | nil =>
      cases view with
      | nil => simpa [writeAll] using h.symm
      | cons => simp [writeAll] at h
  | cons n written ih =>
      cases view with
      | nil => simpa [writeAll] using h.symm
      | cons b view =>
          simp only [writeAll] at h
          split at h
          · simp at h
          · rw [ih h, List.append_assoc, List.take_append_drop]

theorem appendSync_done {io : WriteResult} {encoded : Bytes} {entry entry' : Entry}
    (h : appendSync io encoded entry = (true, entry')) :
    entry ≠ .special ∧ entry' = .file (entry.content ++ encoded) := by
  unfold appendSync at h
  split at h
  · simp at h
  · rename_i regular
    refine ⟨regular, ?_⟩
    cases hw : writeAll io.written encoded entry.content with
    | mk done content =>
        simp only [hw, Prod.mk.injEq, Bool.and_eq_true] at h
        obtain ⟨⟨rfl, -⟩, rfl⟩ := h
        rw [writeAll_done hw]

/-! ### Redaction -/

theorem redactPayload_keys (fields : List (Text × Value)) :
    (redactPayload lib fields).map Prod.fst = fields.map Prod.fst := by
  induction fields with
  | nil => rfl
  | cons field fields ih => simp [redactPayload, ih]

theorem allItems_take {leaf keys} {items : List Value} (n : Nat)
    (h : Value.allItems leaf keys items) : Value.allItems leaf keys (items.take n) := by
  rw [Value.allItems_eq] at h ⊢
  rw [List.all_eq_true] at h ⊢
  intro item hm
  exact h item (List.mem_of_mem_take hm)

-- Redaction keeps every key where it is, so the keys stay distinct at every depth.
mutual

theorem redactPayload_distinct : ∀ fields : List (Text × Value),
    Value.allFields (fun _ => true) (fun keys => decide keys.Nodup) fields →
      Value.allFields (fun _ => true) (fun keys => decide keys.Nodup) (redactPayload lib fields)
  | [], _ => rfl
  | (key, item) :: fields, h => by
      rw [Value.allFields, Bool.and_eq_true] at h
      rw [redactPayload, Value.allFields, Bool.and_eq_true]
      refine ⟨?_, redactPayload_distinct fields h.2⟩
      split
      · rfl
      · exact safeAuditValue_distinct item h.1

theorem safeAuditValue_distinct : ∀ value : Value,
    value.distinct → (safeAuditValue lib value).distinct
  | .list items, h => by
      rw [Value.distinct, Value.all] at h
      rw [safeAuditValue, Value.distinct, Value.all]
      exact allItems_take 64 (safeAuditItems_distinct items h)
  | .dict fields, h => by
      rw [Value.distinct, Value.all, Bool.and_eq_true] at h
      rw [safeAuditValue, Value.distinct, Value.all, Bool.and_eq_true, redactPayload_keys]
      exact ⟨h.1, redactPayload_distinct fields h.2⟩
  | .str _, _ | .bool _, _ | .int _, _ | .float _, _ | .none, _ | .other, _ => rfl

theorem safeAuditItems_distinct : ∀ items : List Value,
    Value.allItems (fun _ => true) (fun keys => decide keys.Nodup) items →
      Value.allItems (fun _ => true) (fun keys => decide keys.Nodup) (safeAuditItems lib items)
  | [], _ => rfl
  | item :: items, h => by
      rw [Value.allItems, Bool.and_eq_true] at h
      rw [safeAuditItems, Value.allItems, Bool.and_eq_true]
      exact ⟨safeAuditValue_distinct item h.1, safeAuditItems_distinct items h.2⟩

end

variable {fields : List (Text × Value)}

theorem mem_of_lookup {key : Text} {value : Value}
    (h : fields.lookup key = some value) : (key, value) ∈ fields := by
  obtain ⟨front, back, rfl, -⟩ := List.lookup_eq_some_iff.mp h
  simp

theorem lookup_of_mem {key : Text} {value : Value}
    (nodup : (fields.map Prod.fst).Nodup) (hm : (key, value) ∈ fields) :
    fields.lookup key = some value := by
  obtain ⟨front, back, rfl⟩ := List.append_of_mem hm
  refine List.lookup_eq_some_iff.mpr ⟨front, back, rfl, ?_⟩
  intro field hfield
  have apart : field.1 ≠ key := by
    rw [List.map_append, List.nodup_append] at nodup
    exact nodup.2.2 _ (List.mem_map_of_mem hfield) _ (by simp)
  simpa using Ne.symm apart

theorem distinct_of_mem {key : Text} {value : Value}
    (h : (Value.dict fields).distinct) (hm : (key, value) ∈ fields) : value.distinct := by
  rw [Value.distinct, Value.all, Bool.and_eq_true, Value.allFields_eq, List.all_eq_true] at h
  exact h.2 _ hm

theorem accept_distinct {request : AuditRequest} {accepted : Accepted}
    (h : accept lib request = some accepted) : (Value.dict accepted.payload).distinct := by
  simp only [accept, Option.bind_eq_bind, Option.bind_eq_some_iff] at h
  obtain ⟨eventType, -, source, -, correlationId, -, sessionId, -, h⟩ := h
  split at h
  · rename_i payload hpayload
    have sent := distinct_of_mem request.distinct (mem_of_lookup hpayload)
    simp only [Option.some.injEq] at h
    subst h
    exact safeAuditValue_distinct (.dict payload) sent
  · cases h

/-! ### One record -/

theorem auditBody_keys (writer : AuditWriter) (call : AppendCall) (accepted : Accepted) :
    (auditBody writer call accepted).map Prod.fst =
      ["sequence", "previous_mac", "peer_uid", "source", "timestamp", "correlation_id",
        "session_id", "event_type", "payload"].map Text.ofString := rfl

variable {writer : AuditWriter}

theorem auditBody_distinct {call : AppendCall} {accepted : Accepted}
    (h : (Value.dict accepted.payload).distinct) :
    (Value.dict (auditBody writer call accepted)).distinct := by
  rw [Value.distinct, Value.all, Bool.and_eq_true, auditBody_keys]
  refine ⟨by decide, ?_⟩
  rw [Value.distinct] at h
  simp [auditBody, Value.allFields, Value.all] at h ⊢
  exact h

theorem mac_not_key (writer : AuditWriter) (call : AppendCall) (accepted : Accepted) :
    Text.ofString "mac" ∉ (auditBody writer call accepted).map Prod.fst := by
  rw [auditBody_keys]
  decide

def withMac (body : List (Text × Value)) (mac : Digest) : List (Text × Value) :=
  body ++ [(Text.ofString "mac", .str mac.hexdigest)]

variable {body : List (Text × Value)}

theorem withMac_distinct (mac : Digest)
    (apart : Text.ofString "mac" ∉ body.map Prod.fst) (h : (Value.dict body).distinct) :
    (Value.dict (withMac body mac)).distinct := by
  rw [Value.distinct, Value.all, Bool.and_eq_true, Value.allFields_eq] at h ⊢
  obtain ⟨nodup, values⟩ := h
  constructor
  · rw [withMac, List.map_append, decide_eq_true_eq]
    exact (of_decide_eq_true nodup).append (List.nodup_singleton _) (by simpa using apart)
  · rw [withMac, List.all_append, values]
    rfl

theorem withMac_serialisable (mac : Digest) {allowNan : Bool}
    (h : (Value.dict body).serialisable allowNan) :
    (Value.dict (withMac body mac)).serialisable allowNan := by
  rw [Value.serialisable, Value.all, Bool.and_eq_true, Value.allFields_eq] at h ⊢
  refine ⟨rfl, ?_⟩
  rw [withMac, List.all_append, h.2]
  rfl

def sorted (fields : List (Text × Value)) : List (Text × Value) :=
  (Value.sortFields fields).insertionSort Value.keyLe

theorem mem_sorted {key : Text} {value : Value}
    (h : (key, value) ∈ fields) : (key, value.sortKeys) ∈ sorted fields := by
  rw [sorted, List.mem_insertionSort, Value.sortFields_eq]
  exact List.mem_map.mpr ⟨_, h, rfl⟩

theorem lookup_sorted {key : Text} {value : Value}
    (distinct : (Value.dict fields).distinct) (h : (key, value) ∈ fields) :
    (sorted fields).lookup key = some value.sortKeys := by
  refine lookup_of_mem ?_ (mem_sorted h)
  have same := Value.distinct_sortKeys (.dict fields)
  rw [distinct] at same
  rw [Value.sortKeys, Value.distinct, Value.all, Bool.and_eq_true] at same
  exact of_decide_eq_true same.1

/-- The loader takes the MAC out of the sorted record, the writer sorts the body without it: both
come to the same document. -/
theorem without_mac_sorted (mac : Digest) (apart : Text.ofString "mac" ∉ body.map Prod.fst) :
    without (Text.ofString "mac") (sorted (withMac body mac)) = sorted body := by
  have kept : (Value.sortFields body).filter (fun field => field.1 ≠ Text.ofString "mac") =
      Value.sortFields body := by
    rw [List.filter_eq_self]
    intro field hm
    have hkey : field.1 ∈ body.map Prod.fst := by
      rw [← Value.sortFields_keys]
      exact List.mem_map_of_mem hm
    have other : field.1 ≠ Text.ofString "mac" := fun heq => apart (heq ▸ hkey)
    simpa using other
  have split : Value.sortFields (withMac body mac) =
      Value.sortFields body ++ [(Text.ofString "mac", .str mac.hexdigest)] := by
    simp [withMac, Value.sortFields_eq, Value.sortKeys]
  rw [without, sorted, sorted, Value.filter_insertionSort, split, List.filter_append, kept]
  simp

theorem hexdigest_ascii (d : Digest) : d.hexdigest.any (128 ≤ ·.val) = false := by
  rw [List.any_eq_false]
  intro c hc
  have range := d.hexdigest_pattern.2 c hc
  simp only [decide_eq_true_eq]
  omega

theorem dumps_sorted {allowNan : Bool} :
    dumps lib allowNan (.dict (sorted fields)) = dumps lib allowNan (.dict fields) := by
  have form : Value.dict (sorted fields) = (Value.dict fields).sortKeys := rfl
  rw [form, dumps, dumps, Value.serialisable_sortKeys, Value.sortKeys_sortKeys]

theorem encodeRecord_some {key : Bytes} {mac : Digest}
    {line : Bytes} (h : encodeRecord lib key body = some (mac, line)) :
    ∃ bodyBytes encoded, dumps lib false (.dict body) = some bodyBytes ∧
      mac = lib.hmacSha256 key bodyBytes ∧
      dumps lib true (.dict (withMac body mac)) = some encoded ∧
      line = encoded ++ [newline] := by
  simp only [encodeRecord, Option.bind_eq_bind, Option.bind_eq_some_iff] at h
  obtain ⟨bodyBytes, hbody, encoded, hrecord, h⟩ := h
  simp only [Option.some.injEq, Prod.mk.injEq] at h
  obtain ⟨rfl, rfl⟩ := h
  exact ⟨bodyBytes, encoded, hbody, rfl, hrecord, rfl⟩

theorem dumps_some {allowNan : Bool} {value : Value} {bytes : Bytes}
    (h : dumps lib allowNan value = some bytes) :
    value.serialisable allowNan ∧ lib.text value.sortKeys = some bytes := by
  unfold dumps at h
  split at h
  · exact ⟨‹_›, h⟩
  · cases h

theorem loads_encodeRecord (lawful : lib.Lawful) {key : Bytes}
    {mac : Digest} {line : Bytes} (h : encodeRecord lib key body = some (mac, line))
    (distinct : (Value.dict body).distinct) (apart : Text.ofString "mac" ∉ body.map Prod.fst) :
    lib.loads line = some (.dict (sorted (withMac body mac))) := by
  obtain ⟨bodyBytes, encoded, hbody, hmac, hrecord, rfl⟩ := encodeRecord_some h
  have plain := withMac_serialisable mac (dumps_some hbody).1
  have sorted' := Value.distinct_sortKeys (.dict (withMac body mac))
  have plain' := Value.serialisable_sortKeys false (.dict (withMac body mac))
  rw [withMac_distinct mac apart distinct] at sorted'
  rw [plain] at plain'
  exact lawful.loads_text sorted' plain' (dumps_some hrecord).2

theorem loadRecord_encodeRecord (lawful : lib.Lawful) {key : Bytes}
    {sequence : Nat} {previous : Text} {mac : Digest} {line : Bytes}
    (h : encodeRecord lib key body = some (mac, line))
    (distinct : (Value.dict body).distinct)
    (apart : Text.ofString "mac" ∉ body.map Prod.fst)
    (hsequence : (Text.ofString "sequence", .int (sequence + 1 : Nat)) ∈ body)
    (hprevious : (Text.ofString "previous_mac", .str previous) ∈ body)
    (fits : line.length ≤ maxAuditMessageBytes * 2) :
    loadRecord lib key (sequence, previous) line = .ok (sequence + 1, mac.hexdigest) := by
  have loaded := loads_encodeRecord lawful h distinct apart
  obtain ⟨bodyBytes, encoded, hbody, hmac, hrecord, rfl⟩ := encodeRecord_some h
  have distinct' := withMac_distinct mac apart distinct
  have hlookup : (sorted (withMac body mac)).lookup (Text.ofString "mac") =
      some (.str mac.hexdigest) :=
    lookup_sorted distinct' (List.mem_append_right body (List.mem_singleton_self _))
  have hprev : (sorted body).lookup (Text.ofString "previous_mac") = some (.str previous) :=
    lookup_sorted distinct hprevious
  have hseq : (sorted body).lookup (Text.ofString "sequence") =
      some (.int (sequence + 1 : Nat)) := lookup_sorted distinct hsequence
  have chain : isText (some (.str previous)) previous = true := by simp [isText]
  have genuine : checkMac lib key sequence mac.hexdigest (sorted body) =
      checkSequence sequence mac.hexdigest (sorted body) := by
    simp [checkMac, dumps_sorted, hbody, hexdigest_ascii, ← hmac]
  unfold loadRecord
  rw [if_neg (Nat.not_lt.mpr fits), loaded]
  simp only [hlookup, without_mac_sorted mac apart, hprev, chain, if_true, genuine]
  simp [checkSequence, hseq, asInt]

theorem encodeRecord_line (lawful : lib.Lawful) {key : Bytes}
    {mac : Digest} {line : Bytes} (h : encodeRecord lib key body = some (mac, line)) :
    Closed line ∧ lines line = [line] := by
  obtain ⟨_, encoded, -, -, hrecord, rfl⟩ := encodeRecord_some h
  have inner := lawful.newline_not_mem (dumps_some hrecord).2
  exact ⟨Or.inr ⟨encoded, rfl⟩, lines_line inner⟩

theorem Closed.append {content line : Bytes} (h : Closed line) (nonempty : line ≠ []) :
    Closed (content ++ line) := by
  rcases h with rfl | ⟨body, rfl⟩
  · contradiction
  · exact Or.inr ⟨content ++ body, by simp⟩

/-! ### Histories -/

/-- The loader accepts the length of every record. -/
def Fits (ledger : Entry) : Prop :=
  ∀ line ∈ lines ledger.content, line.length ≤ maxAuditMessageBytes * 2

/-- A writer that starts on the disk comes to the state of this one. -/
structure Consistent (lib : LedgerLibrary) (writer : AuditWriter) (disk : Disk) : Prop where
  key : disk.key = .file writer.key
  keyLength : writer.key.length = 32
  closed : Closed disk.ledger.content
  tail : Fits disk.ledger →
    loadTail lib writer.key disk.ledger = .ok (writer.sequence, writer.previousMac)

theorem Consistent.prepare {disk : Disk}
    (h : Consistent lib writer disk) (fits : Fits disk.ledger) (random : Bytes) :
    prepare lib random disk = .ok (writer, disk) := by
  have hkey : loadKey random disk.key = .ok writer.key := by
    rw [h.key, loadKey, if_pos h.keyLength]
  have hdisk : { disk with key := Entry.file writer.key } = disk := by rw [← h.key]
  simp [Audit.prepare, hkey, h.tail fits, bind, Except.bind, hdisk]

theorem prepare_consistent {random : Bytes} {disk disk' : Disk}
    (fresh : disk.ledger = .absent) (h : prepare lib random disk = .ok (writer, disk')) :
    Consistent lib writer disk' ∧ writer.sequence = 0 ∧ writer.previousMac = zeroMac := by
  cases hkey : loadKey random disk.key with
  | error e => simp [prepare, hkey, bind, Except.bind] at h
  | ok key =>
      have length : key.length = 32 := by
        unfold loadKey at hkey
        split at hkey
        · cases hkey
        · split at hkey
          · cases hkey; assumption
          · cases hkey
        · split at hkey
          · cases hkey; assumption
          · cases hkey
      simp [prepare, hkey, fresh, loadTail, bind, Except.bind] at h
      obtain ⟨rfl, rfl⟩ := h
      exact ⟨⟨rfl, length, Or.inl rfl, fun _ => rfl⟩, rfl, rfl⟩

/-- What one call comes to when its write does not fail. -/
inductive Appended (lib : LedgerLibrary) (writer : AuditWriter) (disk : Disk) (call : AppendCall) :
    Except AppendError AuditReceipt × AuditWriter × Disk → Prop
  | rejected (e : AppendError) : Appended lib writer disk call (.error e, writer, disk)
  | recorded (accepted : Accepted) (mac : Digest) (line : Bytes) (receipt : AuditReceipt)
      (distinct : (Value.dict accepted.payload).distinct)
      (encoded : encodeRecord lib writer.key (auditBody writer call accepted) = some (mac, line))
      (regular : disk.ledger ≠ .special)
      (sequence : receipt.sequence = writer.sequence + 1)
      (hmac : receipt.mac = mac.hexdigest) :
      Appended lib writer disk call
        (.ok receipt, ⟨writer.key, writer.sequence + 1, mac.hexdigest⟩,
          ⟨disk.key, .file (disk.ledger.content ++ line)⟩)

theorem append_cases (writer : AuditWriter) (disk : Disk) (call : AppendCall)
    (written : (append lib writer disk call).1 ≠ .error .diskFailed) :
    Appended lib writer disk call (append lib writer disk call) := by
  unfold append at written ⊢
  cases haccept : accept lib call.request with
  | none => exact .rejected .invalidRequest
  | some accepted =>
      simp only [haccept] at written
      cases hencode : encodeRecord lib writer.key (auditBody writer call accepted) with
      | none =>
          simp only [hencode]
          exact .rejected .unserialisable
      | some encoded =>
          obtain ⟨mac, line⟩ := encoded
          simp only [hencode] at written ⊢
          cases hsync : appendSync call.io line disk.ledger with
          | mk done ledger =>
              cases done with
              | false => simp [hsync] at written
              | true =>
                  obtain ⟨regular, rfl⟩ := appendSync_done hsync
                  exact .recorded accepted mac line _ (accept_distinct haccept) hencode regular
                    rfl rfl

theorem append_key (writer : AuditWriter) (disk : Disk) (call : AppendCall) :
    (append lib writer disk call).2.1.key = writer.key := by
  unfold append
  split
  · rfl
  · split
    · rfl
    · split <;> rfl

theorem foldlM_snoc {α β : Type} {f : α → β → Except LoadError α} {a b : α} {xs : List β} {x : β}
    (h : xs.foldlM f a = .ok b) : (xs ++ [x]).foldlM f a = f b x := by
  simp only [List.foldlM_append, h]
  exact bind_pure (f b x)

theorem loadTail_content {key : Bytes} {ledger : Entry} (regular : ledger ≠ .special) :
    loadTail lib key ledger = (lines ledger.content).foldlM (loadRecord lib key) (0, zeroMac) := by
  cases ledger with
  | absent => rfl
  | special => contradiction
  | file content => rfl

theorem Consistent.append (lawful : lib.Lawful) {disk : Disk}
    {call : AppendCall} {result} (h : Consistent lib writer disk)
    (step : Appended lib writer disk call result) :
    Consistent lib result.2.1 result.2.2 ∧ (Fits result.2.2.ledger → Fits disk.ledger) := by
  cases step with
  | rejected e => exact ⟨h, id⟩
  | recorded accepted mac line receipt distinct encoded regular _ _ =>
      obtain ⟨lineClosed, lineOnly⟩ := encodeRecord_line lawful encoded
      have nonempty : line ≠ [] := by
        rintro rfl
        cases lineOnly
      have content : lines (disk.ledger.content ++ line) = lines disk.ledger.content ++ [line] := by
        rw [lines_append h.closed, lineOnly]
      have before : Fits (.file (disk.ledger.content ++ line)) → Fits disk.ledger := by
        intro fits other hm
        refine fits other ?_
        rw [Entry.content, content]
        exact List.mem_append_left _ hm
      refine ⟨⟨h.key, h.keyLength, lineClosed.append nonempty, fun fits => ?_⟩, before⟩
      have loaded := h.tail (before fits)
      rw [loadTail_content regular] at loaded
      have short : line.length ≤ maxAuditMessageBytes * 2 := by
        refine fits line ?_
        rw [Entry.content, content]
        simp
      rw [loadTail_content (by simp), Entry.content, content, foldlM_snoc loaded]
      exact loadRecord_encodeRecord lawful encoded (auditBody_distinct distinct)
        (mac_not_key writer call accepted) (by simp [auditBody]) (by simp [auditBody]) short

/-- No write of the run failed. -/
def LedgerRun.Written (run : LedgerRun) : Prop :=
  ∀ outcome ∈ run.outcomes, outcome ≠ .error .diskFailed

theorem appendAll_cons (writer : AuditWriter) (disk : Disk) (call : AppendCall)
    (calls : List AppendCall) :
    appendAll lib writer disk (call :: calls) =
      let step := append lib writer disk call
      let run := appendAll lib step.2.1 step.2.2 calls
      ⟨step.1 :: run.outcomes, run.writer, run.disk⟩ := rfl

theorem appendAll_append (writer : AuditWriter) (disk : Disk) (before after : List AppendCall) :
    appendAll lib writer disk (before ++ after) =
      let first := appendAll lib writer disk before
      let second := appendAll lib first.writer first.disk after
      ⟨first.outcomes ++ second.outcomes, second.writer, second.disk⟩ := by
  induction before generalizing writer disk with
  | nil => rfl
  | cons call before ih => simp only [List.cons_append, appendAll_cons, ih]

theorem Consistent.appendAll (lawful : lib.Lawful) {disk : Disk}
    (calls : List AppendCall) (h : Consistent lib writer disk)
    (written : (appendAll lib writer disk calls).Written) :
    Consistent lib (appendAll lib writer disk calls).writer (appendAll lib writer disk calls).disk ∧
      (Fits (appendAll lib writer disk calls).disk.ledger → Fits disk.ledger) := by
  induction calls generalizing writer disk with
  | nil => exact ⟨h, id⟩
  | cons call calls ih =>
      rw [appendAll_cons] at written ⊢
      have step := append_cases writer disk call (written _ List.mem_cons_self)
      obtain ⟨next, before⟩ := h.append lawful step
      obtain ⟨last, rest⟩ := ih next fun outcome hm => written outcome (List.mem_cons_of_mem _ hm)
      exact ⟨last, fun fits => before (rest fits)⟩

theorem appendAll_receipts (writer : AuditWriter) (disk : Disk) (calls : List AppendCall)
    (written : (appendAll lib writer disk calls).Written) :
    (appendAll lib writer disk calls).receipts.map (·.sequence) =
        List.range' (writer.sequence + 1) (appendAll lib writer disk calls).receipts.length ∧
      (appendAll lib writer disk calls).writer.sequence =
        writer.sequence + (appendAll lib writer disk calls).receipts.length ∧
      (appendAll lib writer disk calls).writer.previousMac =
        ((appendAll lib writer disk calls).receipts.getLast?.map (·.mac)).getD
          writer.previousMac := by
  induction calls generalizing writer disk with
  | nil => exact ⟨rfl, rfl, rfl⟩
  | cons call calls ih =>
      rw [appendAll_cons] at written ⊢
      have step := append_cases writer disk call (written _ List.mem_cons_self)
      have rest := ih (append lib writer disk call).2.1 (append lib writer disk call).2.2
        fun outcome hm => written outcome (List.mem_cons_of_mem _ hm)
      generalize append lib writer disk call = result at step rest
      cases step with
      | rejected e =>
          simp only [LedgerRun.receipts, List.filterMap_cons, Except.toOption]
          exact rest
      | recorded accepted mac line receipt distinct encoded regular sequence hmac =>
          obtain ⟨numbers, count, last⟩ := rest
          simp only [LedgerRun.receipts, List.filterMap_cons, Except.toOption] at numbers count last ⊢
          refine ⟨?_, ?_, ?_⟩
          · simp [numbers, sequence, List.range'_succ]
          · simp only [count, List.length_cons]
            omega
          · rw [last, List.getLast?_cons]
            cases (List.filterMap _ _).getLast? <;> simp [hmac]

theorem appendAll_key (writer : AuditWriter) (disk : Disk) (calls : List AppendCall) :
    (appendAll lib writer disk calls).writer.key = writer.key := by
  induction calls generalizing writer disk with
  | nil => rfl
  | cons call calls ih => rw [appendAll_cons, ih, append_key]

theorem Consistent.sessions (lawful : lib.Lawful) {disk : Disk}
    (segments : List Session) (h : Consistent lib writer disk)
    (written : (Audit.appendAll lib writer disk (segments.flatMap (·.calls))).Written)
    (fits : Fits (Audit.appendAll lib writer disk (segments.flatMap (·.calls))).disk.ledger) :
    sessions lib disk segments =
      .ok ((Audit.appendAll lib writer disk (segments.flatMap (·.calls))).outcomes,
        (Audit.appendAll lib writer disk (segments.flatMap (·.calls))).disk) := by
  induction segments generalizing writer disk with
  | nil => rfl
  | cons session segments ih =>
      rw [List.flatMap_cons] at written fits ⊢
      have whole := (h.appendAll lawful _ written).2 fits
      rw [appendAll_append] at written fits ⊢
      have first := h.appendAll lawful session.calls
        fun outcome hm => written outcome (List.mem_append_left _ hm)
      have rest := ih first.1 (fun outcome hm => written outcome (List.mem_append_right _ hm)) fits
      simp only [Audit.sessions, h.prepare whole, bind, Except.bind, rest]

/-- Receipts count the accepted requests from one, the next writer starts where this one stopped,
and a history cut into sessions at any points is the history without the cuts. -/
theorem ledger_round_trip (lawful : lib.Lawful) {random : Bytes} {directory disk : Disk}
    {writer : AuditWriter} (fresh : directory.ledger = .absent)
    (start : prepare lib random directory = .ok (writer, disk)) (calls : List AppendCall)
    (written : (appendAll lib writer disk calls).Written)
    (fits : Fits (appendAll lib writer disk calls).disk.ledger) :
    let run := appendAll lib writer disk calls
    run.receipts.map (·.sequence) = List.range' 1 run.receipts.length ∧
      (∀ random', ∃ writer', prepare lib random' run.disk = .ok (writer', run.disk) ∧
        writer'.key = writer.key ∧
        writer'.sequence = run.receipts.length ∧
        writer'.previousMac = (run.receipts.getLast?.map (·.mac)).getD zeroMac) ∧
      ∀ segments : List Session, segments.flatMap (·.calls) = calls →
        sessions lib disk segments = .ok (run.outcomes, run.disk) := by
  obtain ⟨consistent, hseq, hmac⟩ := prepare_consistent fresh start
  obtain ⟨numbers, count, last⟩ := appendAll_receipts writer disk calls written
  rw [hseq] at numbers count
  rw [hmac] at last
  refine ⟨by simpa using numbers, fun random' => ?_, ?_⟩
  · have final := (consistent.appendAll lawful calls written).1
    exact ⟨_, final.prepare fits random', appendAll_key writer disk calls,
      by simpa using count, last⟩
  · rintro segments rfl
    exact consistent.sessions lawful segments written fits

/-! A first session of two calls, the second without a source, and a third call after it.  A sum of
the bytes stands for the MAC. -/

def checksum (key body : Bytes) : Digest where
  bytes := List.replicate 32 ((key ++ body).foldl (· + ·) 0)
  length_eq := List.length_replicate

def asciiLower (s : Text) : Text :=
  s.map fun c => if 65 ≤ c.val ∧ c.val ≤ 90 then Fin.ofNat _ (c.val + 32) else c

def sampleLibrary : LedgerLibrary where
  casefold := asciiLower
  hmacSha256 := checksum
  text := Plain.text
  loads := Plain.loads

theorem sampleLibrary_lawful : sampleLibrary.Lawful where
  loads_text _ _ h := Plain.loads_text h
  newline_not_mem h := Plain.newline_not_mem_text h

def sampleKey : Bytes := List.replicate 32 7

def sampleWriter : AuditWriter := ⟨sampleKey, 0, zeroMac⟩

def sampleDisk : Disk := ⟨.file sampleKey, .absent⟩

def sampleRequest (source : String) : AuditRequest where
  fields :=
    [ (Text.ofString "event_type", .lit "storage.approved"),
      (Text.ofString "source", .lit source),
      (Text.ofString "correlation_id", .lit "c-1"),
      (Text.ofString "session_id", .lit "s-1"),
      (Text.ofString "payload", .dict
        [ (Text.ofString "Token", .lit "abc"), (Text.ofString "attempts", .list [.int 12, .none]) ]) ]
  distinct := rfl

def sampleCall (source : String) : AppendCall where
  request := sampleRequest source
  peerUid := 0
  timestamp := Text.ofString "2026-01-01T00:00:00+00:00"
  io := ⟨[100, 1000], true⟩

def sampleCalls : List AppendCall := [sampleCall "broker", sampleCall "", sampleCall "broker"]

def sampleRun : LedgerRun := appendAll sampleLibrary sampleWriter sampleDisk sampleCalls

theorem sampleRun_written : sampleRun.Written := by
  have done : (sampleRun.outcomes.all fun
      | .error .diskFailed => false
      | _ => true) = true := by decide +kernel
  intro outcome hm heq
  have := List.all_eq_true.mp done outcome hm
  simp [heq] at this

theorem ledger_round_trip_run : sampleRun.receipts.map (·.sequence) = [1, 2] ∧
      sessions sampleLibrary sampleDisk [⟨[], sampleCalls.take 2⟩, ⟨[], sampleCalls.drop 2⟩] =
        .ok (sampleRun.outcomes, sampleRun.disk) := by
  obtain ⟨count, fits⟩ : sampleRun.receipts.length = 2 ∧
      Fits (appendAll sampleLibrary sampleWriter sampleDisk sampleCalls).disk.ledger := by
    unfold Fits
    decide +kernel
  have whole := @ledger_round_trip sampleLibrary sampleLibrary_lawful sampleKey
    ⟨.absent, .absent⟩ sampleDisk sampleWriter rfl (by rfl) sampleCalls sampleRun_written fits
  obtain ⟨numbers, -, restart⟩ := whole
  refine ⟨?_, restart _ rfl⟩
  rw [← sampleRun, count] at numbers
  exact numbers

end Ares.Audit
