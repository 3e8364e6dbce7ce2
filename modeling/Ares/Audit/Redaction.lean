import Ares.Audit.Chain
import Ares.Data.Sorted

/-! What redaction hides: the values under sensitive keys leave no trace in the redacted payload,
in the line of the ledger or in its MAC, and redacting again changes nothing. -/

namespace Ares.Audit

open Data

variable {lib : LedgerLibrary}

/-! ### Values that agree outside the sensitive keys -/

mutual

/-- The two values differ only in the values under sensitive keys, at any depth.  The fields of an
object have no order. -/
inductive Agree (lib : LedgerLibrary) : Value → Value → Prop
  | refl (value : Value) : Agree lib value value
  | list {xs ys : List Value} : AgreeItems lib xs ys → Agree lib (.list xs) (.list ys)
  | dict {xs ys zs : List (Text × Value)} :
      AgreeFields lib xs zs → zs.Perm ys → Agree lib (.dict xs) (.dict ys)

inductive AgreeItems (lib : LedgerLibrary) : List Value → List Value → Prop
  | nil : AgreeItems lib [] []
  | cons {x y : Value} {xs ys : List Value} :
      Agree lib x y → AgreeItems lib xs ys → AgreeItems lib (x :: xs) (y :: ys)

inductive AgreeFields (lib : LedgerLibrary) : List (Text × Value) → List (Text × Value) → Prop
  | nil : AgreeFields lib [] []
  | hidden {key : Text} {x y : Value} {xs ys : List (Text × Value)} :
      lib.casefold key ∈ sensitive → AgreeFields lib xs ys →
        AgreeFields lib ((key, x) :: xs) ((key, y) :: ys)
  | shown {key : Text} {x y : Value} {xs ys : List (Text × Value)} :
      Agree lib x y → AgreeFields lib xs ys → AgreeFields lib ((key, x) :: xs) ((key, y) :: ys)

end

theorem safeAuditItems_eq (items : List Value) :
    safeAuditItems lib items = items.map (safeAuditValue lib) := by
  induction items with
  | nil => rfl
  | cons item items ih => simp [safeAuditItems, ih]

theorem redactPayload_perm {xs ys : List (Text × Value)} (h : xs.Perm ys) :
    (redactPayload lib xs).Perm (redactPayload lib ys) := by
  induction h with
  | nil => exact .nil
  | cons field _ ih => exact ih.cons _
  | swap => exact .swap ..
  | trans _ _ first second => exact first.trans second

theorem insertionSort_perm {xs ys : List (Text × Value)} (h : xs.Perm ys)
    (nodup : (xs.map Prod.fst).Nodup) :
    xs.insertionSort Value.keyLe = ys.insertionSort Value.keyLe := by
  have left := List.perm_insertionSort Value.keyLe xs
  have right := List.perm_insertionSort Value.keyLe ys
  refine List.Perm.eq_of_pairwise ?_ (List.pairwise_insertionSort _ xs)
    (List.pairwise_insertionSort _ ys) (left.trans (h.trans right.symm))
  intro x y hx hy hxy hyx
  exact List.inj_on_of_nodup_map nodup (left.mem_iff.mp hx) (h.mem_iff.mpr (right.mem_iff.mp hy))
    (le_antisymm hxy hyx)

-- The induction is on the derivation.  Where it reorders the fields of an object, their keys are
-- distinct, so sorting brings both lists into one order.
mutual

theorem Agree.sorted : ∀ {a b : Value}, Agree lib a b → a.distinct → b.distinct →
    (safeAuditValue lib a).sortKeys = (safeAuditValue lib b).sortKeys
  | _, _, .refl _, _, _ => rfl
  | .list _, .list _, .list items, ha, hb => by
      have same := items.sorted (Value.distinct_list.mp ha) (Value.distinct_list.mp hb)
      simp only [safeAuditValue, Value.sortKeys, Value.sortItems_eq, List.map_take] at same ⊢
      rw [same]
  | .dict _, .dict _, @Agree.dict _ _ _ zs fields perm, ha, hb => by
      obtain ⟨hnodup, hvalues⟩ := Value.distinct_dict.mp hb
      have same := fields.sorted (Value.distinct_dict.mp ha).2 fun field hm =>
        hvalues field (perm.mem_iff.mp hm)
      have keys : ((Value.sortFields (redactPayload lib zs)).map Prod.fst).Nodup := by
        rw [Value.sortFields_keys, redactPayload_keys]
        exact (perm.map Prod.fst).nodup_iff.mpr hnodup
      have order : ((redactPayload lib zs).map fun field => (field.1, field.2.sortKeys)).Perm _ :=
        (redactPayload_perm perm).map _
      rw [← Value.sortFields_eq, ← Value.sortFields_eq] at order
      simp only [safeAuditValue, Value.sortKeys]
      rw [same, insertionSort_perm order keys]

theorem AgreeItems.sorted : ∀ {xs ys : List Value}, AgreeItems lib xs ys →
    (∀ x ∈ xs, x.distinct) → (∀ y ∈ ys, y.distinct) →
      Value.sortItems (safeAuditItems lib xs) = Value.sortItems (safeAuditItems lib ys)
  | _, _, .nil, _, _ => rfl
  | _ :: _, _ :: _, .cons item items, hx, hy => by
      have first := item.sorted (hx _ List.mem_cons_self) (hy _ List.mem_cons_self)
      have rest := items.sorted (fun x h => hx x (List.mem_cons_of_mem _ h)) fun y h =>
        hy y (List.mem_cons_of_mem _ h)
      simp only [safeAuditItems, Value.sortItems, first, rest]

theorem AgreeFields.sorted : ∀ {xs ys : List (Text × Value)}, AgreeFields lib xs ys →
    (∀ x ∈ xs, x.2.distinct) → (∀ y ∈ ys, y.2.distinct) →
      Value.sortFields (redactPayload lib xs) = Value.sortFields (redactPayload lib ys)
  | _, _, .nil, _, _ => rfl
  | _ :: _, _ :: _, .hidden hkey fields, hx, hy => by
      have rest := fields.sorted (fun x h => hx x (List.mem_cons_of_mem _ h)) fun y h =>
        hy y (List.mem_cons_of_mem _ h)
      simp only [redactPayload, Value.sortFields, if_pos hkey, rest]
  | (key, _) :: _, (_, _) :: _, .shown item fields, hx, hy => by
      have first := item.sorted (hx _ List.mem_cons_self) (hy _ List.mem_cons_self)
      have rest := fields.sorted (fun x h => hx x (List.mem_cons_of_mem _ h)) fun y h =>
        hy y (List.mem_cons_of_mem _ h)
      simp only [redactPayload, Value.sortFields, rest]
      by_cases hkey : lib.casefold key ∈ sensitive
      · rw [if_pos hkey, if_pos hkey]
      · rw [if_neg hkey, if_neg hkey, first]

end

/-! ### The line and its MAC -/

/-- Two calls that differ only in payloads that agree. -/
structure AgreeCalls (lib : LedgerLibrary) (call call' : AppendCall) : Prop where
  peerUid : call'.peerUid = call.peerUid
  timestamp : call'.timestamp = call.timestamp
  io : call'.io = call.io
  others : ∀ key, key ≠ "payload" → call'.request.get key = call.request.get key
  payload : ∃ a b, call.request.get "payload" = some a ∧ call'.request.get "payload" = some b ∧
    Agree lib a b

theorem dumps_congr {value value' : Value} (h : value.sortKeys = value'.sortKeys)
    (allowNan : Bool) : dumps lib allowNan value = dumps lib allowNan value' := by
  have plain := Value.serialisable_sortKeys allowNan value
  rw [h, Value.serialisable_sortKeys] at plain
  rw [dumps, dumps, h, plain]

theorem encodeRecord_congr (key : Bytes) {body body' : List (Text × Value)}
    (h : Value.sortFields body = Value.sortFields body') :
    encodeRecord lib key body = encodeRecord lib key body' := by
  have whole (more : List (Text × Value)) :
      (Value.dict (body ++ more)).sortKeys = (Value.dict (body' ++ more)).sortKeys := by
    rw [Value.sortFields_eq, Value.sortFields_eq] at h
    simp only [Value.sortKeys, Value.sortFields_eq, List.map_append, h]
  have bare : (Value.dict body).sortKeys = (Value.dict body').sortKeys := by
    simpa using whole []
  rw [encodeRecord, encodeRecord, dumps_congr bare]
  simp only [dumps_congr (whole _)]

theorem accept_agree {call call' : AppendCall} (h : AgreeCalls lib call call') :
    (accept lib call.request = none ∧ accept lib call'.request = none) ∨
      ∃ accepted payload, accept lib call.request = some accepted ∧
        accept lib call'.request = some { accepted with payload } ∧
          (Value.dict accepted.payload).sortKeys = (Value.dict payload).sortKeys := by
  obtain ⟨a, b, ha, hb, agree⟩ := h.payload
  have event := h.others "event_type" (by decide)
  have source := h.others "source" (by decide)
  have correlation := h.others "correlation_id" (by decide)
  have session := h.others "session_id" (by decide)
  unfold accept
  rw [event, source, correlation, session, ha, hb]
  cases boundedString (call.request.get "event_type") 96 with
  | none => exact .inl ⟨rfl, rfl⟩
  | some eventType =>
    cases boundedString (call.request.get "source") 96 with
    | none => exact .inl ⟨rfl, rfl⟩
    | some source =>
      cases boundedString (call.request.get "correlation_id") 128 with
      | none => exact .inl ⟨rfl, rfl⟩
      | some correlationId =>
        cases boundedString (call.request.get "session_id") 128 with
        | none => exact .inl ⟨rfl, rfl⟩
        | some sessionId =>
          have same := agree.sorted (distinct_of_mem call.request.distinct (mem_of_lookup ha))
            (distinct_of_mem call'.request.distinct (mem_of_lookup hb))
          cases agree with
          | refl =>
            cases a with
            | dict fields => exact .inr ⟨_, _, rfl, rfl, rfl⟩
            | _ => exact .inl ⟨rfl, rfl⟩
          | list items => exact .inl ⟨rfl, rfl⟩
          | dict fields perm => exact .inr ⟨_, _, rfl, rfl, same⟩

theorem append_agree (writer : AuditWriter) (disk : Disk) {call call' : AppendCall}
    (h : AgreeCalls lib call call') : append lib writer disk call' = append lib writer disk call := by
  rcases accept_agree h with ⟨hnone, hnone'⟩ | ⟨accepted, payload, hsome, hsome', same⟩
  · rw [append, append, hnone, hnone']
  · have fields : Value.sortFields (auditBody writer call accepted) =
        Value.sortFields (auditBody writer call' { accepted with payload }) := by
      simp only [auditBody, h.peerUid, h.timestamp, Value.sortFields, same]
    rw [append, append, hsome, hsome']
    simp only [h.io, encodeRecord_congr writer.key fields]

/-! ### Redacting twice -/

mutual

theorem redactPayload_twice : ∀ fields : List (Text × Value),
    redactPayload lib (redactPayload lib fields) = redactPayload lib fields
  | [] => rfl
  | (key, item) :: fields => by
      simp only [redactPayload, redactPayload_twice fields]
      by_cases hkey : lib.casefold key ∈ sensitive
      · rw [if_pos hkey, if_pos hkey]
      · rw [if_neg hkey, if_neg hkey, safeAuditValue_twice item]

theorem safeAuditValue_twice : ∀ value : Value,
    safeAuditValue lib (safeAuditValue lib value) = safeAuditValue lib value
  | .list items => by
      have twice := safeAuditItems_twice items
      rw [safeAuditItems_eq, safeAuditItems_eq] at twice
      simp only [safeAuditValue, safeAuditItems_eq, List.map_take, twice, List.take_take,
        Nat.min_self]
  | .dict fields => by simp only [safeAuditValue, redactPayload_twice fields]
  | .str s => by simp only [safeAuditValue, List.take_take, Nat.min_self]
  | .none | .bool _ | .int _ | .float _ | .other => rfl

theorem safeAuditItems_twice : ∀ items : List Value,
    safeAuditItems lib (safeAuditItems lib items) = safeAuditItems lib items
  | [] => rfl
  | item :: items => by
      simp only [safeAuditItems, safeAuditValue_twice item, safeAuditItems_twice items]

end

/-- Payloads that agree outside the sensitive keys are redacted to the same dictionary, the append
of one does what the append of the other does, and redaction changes nothing the second time. -/
theorem redaction_noninterferent (lib : LedgerLibrary) :
    (∀ a b : List (Text × Value), (Value.dict a).distinct → (Value.dict b).distinct →
      Agree lib (.dict a) (.dict b) →
        (Value.dict (redactPayload lib a)).sortKeys = (Value.dict (redactPayload lib b)).sortKeys) ∧
    (∀ (writer : AuditWriter) (disk : Disk) (call call' : AppendCall),
      AgreeCalls lib call call' → append lib writer disk call' = append lib writer disk call) ∧
    ∀ fields : List (Text × Value),
      redactPayload lib (redactPayload lib fields) = redactPayload lib fields :=
  ⟨fun _ _ ha hb agree => agree.sorted ha hb,
    fun writer disk _ _ agree => append_agree writer disk agree, redactPayload_twice⟩

/-- A payload with a secret at its top and in a dictionary of a list. -/
def secretFields (secret : String) : List (Text × Value) :=
  [ (Text.ofString "Token", .lit secret),
    (Text.ofString "disks", .list
      [.dict [(Text.ofString "size", .int 12), (Text.ofString "KEY", .lit secret)], .none]) ]

def secretCall (secret : String) : AppendCall where
  request :=
    { fields :=
        [ (Text.ofString "payload", .dict (secretFields secret)),
          (Text.ofString "event_type", .lit "storage.approved"),
          (Text.ofString "source", .lit "storage-broker"),
          (Text.ofString "correlation_id", .lit "c-1"),
          (Text.ofString "session_id", .lit "s-1") ]
      distinct := rfl }
  peerUid := 0
  timestamp := Text.ofString "2026-01-01T00:00:00+00:00"
  io := ⟨[100, 1000], true⟩

theorem secretFields_agree (a b : String) :
    AgreeFields sampleLibrary (secretFields a) (secretFields b) :=
  .hidden (by decide) (.shown (.list (.cons
    (.dict (.shown (.refl _) (.hidden (by decide) .nil)) (.refl _)) (.cons (.refl _) .nil))) .nil)

theorem secretCall_agree (a b : String) :
    AgreeCalls sampleLibrary (secretCall a) (secretCall b) where
  peerUid := rfl
  timestamp := rfl
  io := rfl
  others key hkey := by
    have hne : (Text.ofString key == Text.ofString "payload") = false :=
      beq_eq_false_iff_ne.mpr fun h => hkey (Text.ofString_inj.mp h)
    simp only [AuditRequest.get, secretCall, List.lookup_cons, hne]
  payload := ⟨_, _, rfl, rfl, .dict (secretFields_agree a b) (.refl _)⟩

/-- Two secrets in two orders of the fields. -/
theorem redaction_noninterferent_sample :
    (Value.dict (redactPayload sampleLibrary (secretFields "abc"))).sortKeys =
        (Value.dict (redactPayload sampleLibrary (secretFields "wxyz").reverse)).sortKeys ∧
      append sampleLibrary sampleWriter sampleDisk (secretCall "wxyz") =
        append sampleLibrary sampleWriter sampleDisk (secretCall "abc") :=
  ⟨(redaction_noninterferent sampleLibrary).1 _ _ rfl rfl
      (.dict (secretFields_agree "abc" "wxyz") (List.reverse_perm _).symm),
    (redaction_noninterferent sampleLibrary).2.1 _ _ _ _ (secretCall_agree "abc" "wxyz")⟩

end Ares.Audit
