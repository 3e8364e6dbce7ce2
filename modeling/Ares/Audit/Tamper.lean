import Mathlib.Data.List.Induction
import Ares.Audit.Chain

/-! What the loader accepts is a chain, and the MAC at its end fixes all of it: two files that the
loader accepts with the same last MAC hold the same records. -/

namespace Ares.Audit

open Data

variable {lib : LedgerLibrary} {key : Bytes}

/-! ### Records -/

/-- A decoded record: the items of a dictionary. -/
abbrev Record := List (Text × Value)

def decode (lib : LedgerLibrary) (raw : Bytes) : Option Record :=
  match lib.loads raw with
  | some (.dict record) => some record
  | _ => none

/-- The records of a file, or none where a line is not the text of a dictionary. -/
def decoded (lib : LedgerLibrary) (ledger : Entry) : Option (List Record) :=
  (lines ledger.content).mapM (decode lib)

/-- Two records are equal as dictionaries, whatever the order of their keys. -/
def canonical (record : Record) : Value := (Value.dict record).sortKeys

def recordMac (record : Record) : Option Text :=
  match record.lookup (Text.ofString "mac") with
  | some (.str mac) => some mac
  | _ => none

def previousMac (record : Record) : Option Text :=
  match record.lookup (Text.ofString "previous_mac") with
  | some (.str mac) => some mac
  | _ => none

def recordSequence (record : Record) : Option Int :=
  (record.lookup (Text.ofString "sequence")).bind asInt

/-- The MAC at the end of a list of records. -/
def lastMac (records : List Record) : Option Text :=
  match records.getLast? with
  | none => some zeroMac
  | some record => recordMac record

def message (lib : LedgerLibrary) (record : Record) : Option Bytes :=
  dumps lib false (.dict (without (Text.ofString "mac") record))

/-- `json.loads` makes dictionaries, and `json.dumps` with sorted keys tells them apart. -/
structure LedgerLibrary.Canonical (lib : LedgerLibrary) : Prop where
  loads_distinct : ∀ {raw value}, lib.loads raw = some value → value.distinct
  dumps_injective : ∀ {value value' bytes}, dumps lib false value = some bytes →
    dumps lib false value' = some bytes → value.sortKeys = value'.sortKeys

/-- HMAC tells the messages of the records apart. -/
def CollisionFree (lib : LedgerLibrary) (key : Bytes) (records : List Record) : Prop :=
  ∀ record ∈ records, ∀ record' ∈ records, ∀ body body',
    message lib record = some body → message lib record' = some body' →
      lib.hmacSha256 key body = lib.hmacSha256 key body' → body = body'

/-! ### Digests -/

theorem hexDigit_injective {m n : Nat} (hm : m < 16) (hn : n < 16) (h : hexDigit m = hexDigit n) :
    m = n := by
  unfold hexDigit at h
  have values := congrArg Fin.val h
  split at values <;> split at values <;> simp only [Fin.ofNat] at values <;> omega

theorem hexBytes_injective {a b : Bytes}
    (h : a.flatMap (fun b => [hexDigit (b.toNat / 16), hexDigit (b.toNat % 16)]) =
      b.flatMap fun b => [hexDigit (b.toNat / 16), hexDigit (b.toNat % 16)]) : a = b := by
  induction a generalizing b with
  | nil =>
      cases b with
      | nil => rfl
      | cons => simp at h
  | cons x a ih =>
      cases b with
      | nil => simp at h
      | cons y b =>
          simp only [List.flatMap_cons, List.cons_append, List.nil_append, List.cons.injEq] at h
          obtain ⟨high, low, rest⟩ := h
          have hx := x.toNat_lt
          have hy := y.toNat_lt
          have high' := hexDigit_injective (by omega) (by omega) high
          have low' := hexDigit_injective (by omega) (by omega) low
          have same : x = y := UInt8.toNat_inj.mp (by omega)
          rw [same, ih rest]

theorem Digest.hexdigest_injective {d d' : Digest} (h : d.hexdigest = d'.hexdigest) : d = d' := by
  cases d
  cases d'
  simp only [Digest.mk.injEq]
  exact hexBytes_injective h

/-! ### Dictionaries -/

theorem sorted_pairwise {fields : Record} (distinct : (Value.dict fields).distinct) :
    (sorted fields).Pairwise fun x y => x.1 < y.1 := by
  have same := Value.distinct_sortKeys (.dict fields)
  rw [distinct, Value.sortKeys, Value.distinct, Value.all, Bool.and_eq_true] at same
  have nodup : ((sorted fields).map Prod.fst).Nodup := of_decide_eq_true same.1
  have ordered : (sorted fields).Pairwise Value.keyLe := List.pairwise_insertionSort _ _
  have apart : (sorted fields).Pairwise fun x y => x.1 ≠ y.1 := List.pairwise_map.mp nodup
  refine (ordered.and apart).imp ?_
  intro x y h
  exact lt_of_le_of_ne h.1 h.2

variable {mac : Text}

theorem perm_without {fields : Record} {value : Value}
    (distinct : (Value.dict fields).distinct) (h : fields.lookup mac = some value) :
    fields.Perm ((mac, value) :: without mac fields) := by
  obtain ⟨front, back, rfl, apart⟩ := List.lookup_eq_some_iff.mp h
  rw [Value.distinct, Value.all, Bool.and_eq_true, decide_eq_true_eq, List.map_append,
    List.map_cons] at distinct
  have nodup := distinct.1
  have hfront : front.filter (fun field => field.1 ≠ mac) = front := by
    rw [List.filter_eq_self]
    intro field hm
    have other : field.1 ≠ mac := fun heq => by simpa [heq] using apart field hm
    simpa using other
  have hback : back.filter (fun field => field.1 ≠ mac) = back := by
    rw [List.filter_eq_self]
    intro field hm
    have hnot := (List.nodup_cons.mp (List.nodup_append.mp nodup).2.1).1
    have hkey : field.1 ∈ back.map Prod.fst := List.mem_map_of_mem hm
    have other : field.1 ≠ mac := fun heq => hnot (heq ▸ hkey)
    simpa using other
  rw [without, List.filter_append, List.filter_cons, hfront, hback]
  simp

theorem sorted_perm {fields fields' : Record} (h : fields.Perm fields') :
    (sorted fields).Perm (sorted fields') := by
  unfold sorted
  refine (List.perm_insertionSort _ _).trans (.trans ?_ (List.perm_insertionSort _ _).symm)
  rw [Value.sortFields_eq, Value.sortFields_eq]
  exact h.map _

theorem canonical_of_without {record record' : Record}
    (distinct : (Value.dict record).distinct) (distinct' : (Value.dict record').distinct)
    (hmac : record.lookup (Text.ofString "mac") = some (.str mac))
    (hmac' : record'.lookup (Text.ofString "mac") = some (.str mac))
    (rest : canonical (without (Text.ofString "mac") record) =
      canonical (without (Text.ofString "mac") record')) :
    canonical record = canonical record' := by
  have cons : ∀ fields : Record,
      (sorted ((Text.ofString "mac", .str mac) :: fields)).Perm
        ((Text.ofString "mac", .str mac) :: sorted fields) := by
    intro fields
    unfold sorted
    refine (List.perm_insertionSort _ _).trans ?_
    rw [Value.sortFields_eq, Value.sortFields_eq, List.map_cons]
    exact (List.perm_insertionSort _ _).symm.cons _
  have hrest : sorted (without (Text.ofString "mac") record) =
      sorted (without (Text.ofString "mac") record') := Value.dict.inj rest
  have perm : (sorted record).Perm (sorted record') := by
    refine (sorted_perm (perm_without distinct hmac)).trans ((cons _).trans ?_)
    rw [hrest]
    exact (cons _).symm.trans (sorted_perm (perm_without distinct' hmac')).symm
  have same := perm.eq_of_pairwise (fun a b _ _ h h' => absurd h (lt_asymm h'))
    (sorted_pairwise distinct) (sorted_pairwise distinct')
  exact congrArg Value.dict same

/-! ### Chains -/

/-- A record that the loader accepts after the record with the number `sequence` and the MAC
`previous`. -/
structure Link (lib : LedgerLibrary) (key : Bytes) (sequence : Nat) (previous : Text)
    (record : Record) (mac : Text) : Prop where
  hasMac : recordMac record = some mac
  hasPrevious : previousMac record = some previous
  hasSequence : recordSequence record = some ((sequence + 1 : Nat) : Int)
  genuine : ∃ body, message lib record = some body ∧ mac = (lib.hmacSha256 key body).hexdigest

/-- Records that the loader accepts one after the other, with the number and the MAC of the
last. -/
inductive Linked (lib : LedgerLibrary) (key : Bytes) : List Record → Nat → Text → Prop
  | nil : Linked lib key [] 0 zeroMac
  | snoc {records : List Record} {sequence : Nat} {previous mac : Text} {record : Record}
      (front : Linked lib key records sequence previous)
      (link : Link lib key sequence previous record mac) :
      Linked lib key (records ++ [record]) (sequence + 1) mac

theorem lookup_without {record : Record} {mac name : Text} (h : name ≠ mac) :
    (without mac record).lookup name = record.lookup name := by
  induction record with
  | nil => rfl
  | cons field record ih =>
      obtain ⟨key, value⟩ := field
      by_cases hk : key = mac
      · have other : (name == key) = false := by simpa [hk] using h
        rw [List.lookup_cons, other, ← ih, without, List.filter_cons]
        simp [hk, without]
      · rw [without, List.filter_cons]
        simp only [ne_eq, hk, not_false_eq_true, decide_true, if_true, List.lookup_cons]
        split
        · rfl
        · exact ih

theorem previous_apart : Text.ofString "previous_mac" ≠ Text.ofString "mac" := by decide

theorem sequence_apart : Text.ofString "sequence" ≠ Text.ofString "mac" := by decide

/-- What one turn of the loop has checked. -/
theorem loadRecord_ok {sequence sequence' : Nat} {previous mac : Text}
    {raw : Bytes} (h : loadRecord lib key (sequence, previous) raw = .ok (sequence', mac)) :
    sequence' = sequence + 1 ∧
      ∃ record, decode lib raw = some record ∧ Link lib key sequence previous record mac := by
  unfold loadRecord at h
  split at h
  · cases h
  split at h
  · cases h
  · next record hloads =>
    split at h
    · next mac' hmac =>
      dsimp only at h
      split at h
      · next hprevious =>
        rw [lookup_without previous_apart] at hprevious
        unfold checkMac at h
        split at h
        · cases h
        · next body hbody =>
          dsimp only at h
          split at h
          · cases h
          split at h
          · cases h
          · next hgenuine =>
            unfold checkSequence at h
            rw [lookup_without sequence_apart] at h
            split at h
            · cases h
            · next current hcurrent =>
              split at h
              · next hnumber =>
                simp only [Except.ok.injEq, Prod.mk.injEq] at h
                obtain ⟨rfl, rfl⟩ := h
                refine ⟨rfl, record, by simp [decode, hloads], ?_, ?_, ?_, body, hbody,
                  not_not.mp hgenuine⟩
                · simp [recordMac, hmac]
                · unfold isText at hprevious
                  split at hprevious
                  · next text hlookup =>
                    simp only [decide_eq_true_eq] at hprevious
                    simp [previousMac, hlookup, hprevious]
                  · cases hprevious
                · rw [recordSequence, hcurrent, hnumber]
              · cases h
      · cases h
    · cases h
  · cases h

variable {records : List Record}

theorem Linked.length {n : Nat} (h : Linked lib key records n mac) : records.length = n := by
  induction h with
  | nil => rfl
  | snoc front link ih => rw [List.length_append, ih, List.length_singleton]

theorem Linked.lastMac {n : Nat}
    (h : Linked lib key records n mac) : lastMac records = some mac := by
  cases h with
  | nil => rfl
  | snoc front link => simp [Audit.lastMac, link.hasMac]

theorem linked_of_loadTail {ledger : Entry} {n : Nat} (h : loadTail lib key ledger = .ok (n, mac)) :
    ∃ records, decoded lib ledger = some records ∧ Linked lib key records n mac := by
  have regular : ledger ≠ .special := by
    rintro rfl
    cases h
  rw [loadTail_content regular] at h
  unfold decoded
  generalize lines ledger.content = raws at h
  induction raws using List.reverseRecOn generalizing n mac with
  | nil =>
      simp only [List.foldlM_nil, pure, Except.pure, Except.ok.injEq, Prod.mk.injEq] at h
      obtain ⟨rfl, rfl⟩ := h
      exact ⟨[], rfl, .nil⟩
  | append_singleton raws raw ih =>
      cases hfront : raws.foldlM (loadRecord lib key) (0, zeroMac) with
      | error e => simp [List.foldlM_append, hfront, bind, Except.bind] at h
      | ok tail =>
          obtain ⟨sequence, previous⟩ := tail
          rw [foldlM_snoc hfront] at h
          obtain ⟨records, hrecords, front⟩ := ih hfront
          obtain ⟨rfl, record, hrecord, link⟩ := loadRecord_ok h
          refine ⟨records ++ [record], ?_, front.snoc link⟩
          rw [List.mapM_append, hrecords]
          simp [hrecord]

/-! ### The last MAC -/

theorem decoded_distinct (rules : lib.Canonical) {ledger : Entry}
    (h : decoded lib ledger = some records) : ∀ record ∈ records, (Value.dict record).distinct := by
  unfold decoded at h
  generalize lines ledger.content = raws at h
  induction raws generalizing records with
  | nil =>
      cases h
      simp
  | cons raw raws ih =>
      simp only [List.mapM_cons, Option.bind_eq_bind, Option.bind_eq_some_iff, Option.pure_def,
        Option.some.injEq] at h
      obtain ⟨record, hrecord, rest, hrest, rfl⟩ := h
      intro record' hm
      rcases List.mem_cons.mp hm with rfl | hm
      · unfold decode at hrecord
        split at hrecord
        · next hloads => exact Option.some.inj hrecord ▸ rules.loads_distinct hloads
        · cases hrecord
      · exact ih hrest record' hm

theorem lookup_of_recordMac {record : Record} (h : recordMac record = some mac) :
    record.lookup (Text.ofString "mac") = some (.str mac) := by
  unfold recordMac at h
  split at h
  · next text hlookup => rw [hlookup, Option.some.inj h]
  · cases h

theorem lookup_of_previousMac {record : Record} (h : previousMac record = some mac) :
    record.lookup (Text.ofString "previous_mac") = some (.str mac) := by
  unfold previousMac at h
  split at h
  · next text hlookup => rw [hlookup, Option.some.inj h]
  · cases h

theorem sortKeys_of_canonical {record record' : Record} {name : Text} {value value' : Value}
    (same : canonical record = canonical record') (distinct : (Value.dict record).distinct)
    (distinct' : (Value.dict record').distinct) (h : record.lookup name = some value)
    (h' : record'.lookup name = some value') : value.sortKeys = value'.sortKeys := by
  have left := lookup_sorted distinct (mem_of_lookup h)
  have right := lookup_sorted distinct' (mem_of_lookup h')
  have hsorted : sorted record = sorted record' := Value.dict.inj same
  rw [hsorted, right] at left
  exact (Option.some.inj left).symm

theorem asInt_sortKeys (value : Value) : asInt value.sortKeys = asInt value := by
  cases value <;> rfl

theorem Link.agree (rules : lib.Canonical) {n n' : Nat} {previous previous' mac : Text}
    {record record' : Record} (link : Link lib key n previous record mac)
    (link' : Link lib key n' previous' record' mac) (distinct : (Value.dict record).distinct)
    (distinct' : (Value.dict record').distinct)
    (free : ∀ body body', message lib record = some body → message lib record' = some body' →
      lib.hmacSha256 key body = lib.hmacSha256 key body' → body = body') :
    canonical record = canonical record' ∧ previous = previous' ∧ n = n' := by
  obtain ⟨body, hbody, hmac⟩ := link.genuine
  obtain ⟨body', hbody', hmac'⟩ := link'.genuine
  have digests := Digest.hexdigest_injective (hmac.symm.trans hmac')
  have hbodies := free body body' hbody hbody' digests
  rw [← hbodies] at hbody'
  have same : canonical record = canonical record' :=
    canonical_of_without distinct distinct' (lookup_of_recordMac link.hasMac)
      (lookup_of_recordMac link'.hasMac) (rules.dumps_injective hbody hbody')
  refine ⟨same, ?_, ?_⟩
  · have items := sortKeys_of_canonical same distinct distinct'
      (lookup_of_previousMac link.hasPrevious) (lookup_of_previousMac link'.hasPrevious)
    exact Value.str.inj items
  · obtain ⟨value, hvalue, hnumber⟩ := Option.bind_eq_some_iff.mp link.hasSequence
    obtain ⟨value', hvalue', hnumber'⟩ := Option.bind_eq_some_iff.mp link'.hasSequence
    have items := sortKeys_of_canonical same distinct distinct' hvalue hvalue'
    rw [← asInt_sortKeys, items, asInt_sortKeys, hnumber'] at hnumber
    have numbers := Option.some.inj hnumber
    omega

theorem CollisionFree.sublist {records records' : List Record}
    (free : CollisionFree lib key records) (sub : records' ⊆ records) :
    CollisionFree lib key records' := fun record hm record' hm' =>
  free record (sub hm) record' (sub hm')

theorem Linked.agree (rules : lib.Canonical) {records records' : List Record} {n : Nat}
    (h : Linked lib key records n mac) (h' : Linked lib key records' n mac)
    (distinct : ∀ record ∈ records ++ records', (Value.dict record).distinct)
    (free : CollisionFree lib key (records ++ records')) :
    records.map canonical = records'.map canonical := by
  induction h generalizing records' with
  | nil =>
      cases List.eq_nil_of_length_eq_zero h'.length
      rfl
  | @snoc records n previous mac record front link ih =>
      generalize hn : n + 1 = m at h'
      cases h' with
      | nil => omega
      | @snoc records' n' previous' _ record' front' link' =>
          obtain ⟨same, rfl, rfl⟩ := link.agree rules link' (distinct record (by simp))
            (distinct record' (by simp)) (free record (by simp) record' (by simp))
          have sub : records ++ records' ⊆ records ++ [record] ++ (records' ++ [record']) := by
            intro r hr
            rcases List.mem_append.mp hr with hr | hr <;> simp [hr]
          have rest := ih front' (fun r hr => distinct r (sub hr)) (free.sublist sub)
          rw [List.map_append, List.map_append, rest, List.map_singleton, List.map_singleton, same]

/-- One of the files has no record, and the last MAC of the other is that of an empty file. -/
def Zeroed (records records' : List Record) : Prop :=
  lastMac records = some zeroMac ∧ lastMac records' = some zeroMac ∧ (records = [] ↔ records' ≠ [])

theorem Linked.same (rules : lib.Canonical) {records records' : List Record} {n n' : Nat}
    (h : Linked lib key records n mac) (h' : Linked lib key records' n' mac)
    (distinct : ∀ record ∈ records ++ records', (Value.dict record).distinct)
    (free : CollisionFree lib key (records ++ records')) :
    records.map canonical = records'.map canonical ∨ Zeroed records records' := by
  have hlast := h.lastMac
  have hlast' := h'.lastMac
  cases h with
  | nil =>
      cases h' with
      | nil => exact .inl rfl
      | snoc front' link' => exact .inr ⟨hlast, hlast', by simp⟩
  | @snoc records n previous mac record front link =>
      cases h' with
      | nil => exact .inr ⟨hlast, hlast', by simp⟩
      | @snoc records' n' previous' _ record' front' link' =>
          obtain ⟨-, -, rfl⟩ := link.agree rules link' (distinct record (by simp))
            (distinct record' (by simp)) (free record (by simp) record' (by simp))
          exact .inl ((front.snoc link).agree rules (front'.snoc link') distinct free)

theorem Linked.numbered {n : Nat} (h : Linked lib key records n mac) (i : Nat) (record : Record)
    (hi : records[i]? = some record) :
    recordSequence record = some ((i + 1 : Nat) : Int) ∧
      previousMac record = Audit.lastMac (records.take i) := by
  induction h with
  | nil => cases hi
  | @snoc records n previous mac last front link ih =>
      rcases Nat.lt_or_ge i records.length with hlt | hge
      · rw [List.getElem?_append_left hlt] at hi
        obtain ⟨number, before⟩ := ih hi
        rw [List.take_append_of_le_length (by omega)]
        exact ⟨number, before⟩
      · obtain ⟨hbound, hget⟩ := List.getElem?_eq_some_iff.mp hi
        have hlast : i = records.length := by
          rw [List.length_append, List.length_singleton] at hbound
          omega
        subst hlast
        rw [List.getElem_append_right (Nat.le_refl _)] at hget
        simp only [Nat.sub_self, List.getElem_cons_zero] at hget
        subst hget
        rw [List.take_left, link.hasPrevious, front.lastMac, link.hasSequence, front.length]
        exact ⟨rfl, rfl⟩

/-- A file that the loader accepts has the records 1 to `n`, each with the MAC before it; a file
with the same last MAC is accepted only with the same records, unless one of the two is empty. -/
theorem tamper_evident (lib : LedgerLibrary) (rules : lib.Canonical) (key : Bytes) (ledger : Entry)
    (n : Nat) (mac : Text) (accepted : loadTail lib key ledger = .ok (n, mac)) :
    ∃ records, decoded lib ledger = some records ∧ records.length = n ∧
      (∀ i record, records[i]? = some record →
        recordSequence record = some ((i + 1 : Nat) : Int) ∧
          previousMac record = lastMac (records.take i)) ∧
      (∀ other m, loadTail lib key other = .ok (m, mac) →
        ∃ records', decoded lib other = some records' ∧
          (CollisionFree lib key (records ++ records') →
            records.map canonical = records'.map canonical ∨ Zeroed records records')) ∧
      ∀ other records', decoded lib other = some records' →
        CollisionFree lib key (records ++ records') → lastMac records' = some mac →
          records.map canonical ≠ records'.map canonical → ¬Zeroed records records' →
            ∃ e, loadTail lib key other = .error e := by
  obtain ⟨records, hrecords, chain⟩ := linked_of_loadTail accepted
  have distinct : ∀ other records', decoded lib other = some records' →
      ∀ record ∈ records ++ records', (Value.dict record).distinct := by
    intro other records' hrecords' record hm
    rcases List.mem_append.mp hm with hm | hm
    · exact decoded_distinct rules hrecords record hm
    · exact decoded_distinct rules hrecords' record hm
  refine ⟨records, hrecords, chain.length, chain.numbered, fun other m h => ?_, ?_⟩
  · obtain ⟨records', hrecords', chain'⟩ := linked_of_loadTail h
    exact ⟨records', hrecords', fun free =>
      chain.same rules chain' (distinct other records' hrecords') free⟩
  · intro other records' hrecords' free hmac changed hzeroed
    cases h : loadTail lib key other with
    | error e => exact ⟨e, rfl⟩
    | ok tail =>
        obtain ⟨m, mac'⟩ := tail
        obtain ⟨records'', hrecords'', chain'⟩ := linked_of_loadTail h
        rw [hrecords', Option.some.injEq] at hrecords''
        subst hrecords''
        have hsame : mac' = mac := by
          rw [chain'.lastMac] at hmac
          exact Option.some.inj hmac
        rw [hsame] at chain'
        rcases chain.same rules chain' (distinct other records' hrecords') free with h | h
        · exact absurd h changed
        · exact absurd h hzeroed

/-! ### Samples -/

/-- The sample library, with a decoder that takes no key twice. -/
def strictLibrary : LedgerLibrary :=
  { sampleLibrary with loads := fun raw => (Plain.loads raw).filter Value.distinct }

theorem canonical_of_strict {lib : LedgerLibrary} (htext : lib.text = Plain.text)
    (hloads : lib.loads = fun raw => (Plain.loads raw).filter Value.distinct) : lib.Canonical where
  loads_distinct h := by
    rw [hloads] at h
    exact (Option.filter_eq_some_iff.mp h).2
  dumps_injective h h' := by
    have left := (dumps_some h).2
    have right := (dumps_some h').2
    rw [htext] at left right
    exact Option.some.inj ((Plain.loads_text left).symm.trans (Plain.loads_text right))

def collisionFree (lib : LedgerLibrary) (key : Bytes) (records : List Record) : Bool :=
  records.all fun record => records.all fun record' =>
    match message lib record, message lib record' with
    | some body, some body' =>
        body = body' || (lib.hmacSha256 key body).bytes ≠ (lib.hmacSha256 key body').bytes
    | _, _ => true

theorem collisionFree_iff (h : collisionFree lib key records = true) :
    CollisionFree lib key records := by
  intro record hm record' hm' body body' hbody hbody' hmac
  have pair := List.all_eq_true.mp (List.all_eq_true.mp h record hm) record' hm'
  simpa [hbody, hbody', hmac] using pair

/-- The last line of the sample file, alone in a file. -/
def shortened : Entry := .file ((lines sampleRun.disk.ledger.content).getLast?.getD [])

/-- The first record is taken out of the sample file. -/
theorem tamper_evident_run : (decoded strictLibrary shortened).map List.length = some 1 ∧
      ∃ e, loadTail strictLibrary sampleKey shortened = .error e := by
  -- one evaluation, since all four read the same two files
  obtain ⟨count, accepted, free, hmac⟩ : (decoded strictLibrary shortened).map List.length = some 1 ∧
      loadTail strictLibrary sampleKey sampleRun.disk.ledger =
        .ok (2, sampleRun.writer.previousMac) ∧
      collisionFree strictLibrary sampleKey ((decoded strictLibrary sampleRun.disk.ledger).getD [] ++
        (decoded strictLibrary shortened).getD []) = true ∧
      lastMac ((decoded strictLibrary shortened).getD []) = some sampleRun.writer.previousMac := by
    decide +kernel
  obtain ⟨records', hrecords', hlength'⟩ := Option.map_eq_some_iff.mp count
  obtain ⟨records, hrecords, hlength, -, -, edits⟩ := tamper_evident strictLibrary
    (canonical_of_strict rfl rfl) sampleKey sampleRun.disk.ledger 2 _ accepted
  rw [hrecords, hrecords'] at free
  rw [hrecords'] at hmac
  refine ⟨count, edits shortened records' hrecords' (collisionFree_iff free) hmac ?_ ?_⟩
  · intro h
    have lengths := congrArg List.length h
    rw [List.length_map, List.length_map] at lengths
    omega
  · rintro ⟨-, -, hempty⟩
    have nonempty : records ≠ [] := fun h => by simp [h] at hlength
    have nonempty' : records' ≠ [] := fun h => by simp [h] at hlength'
    exact nonempty (hempty.mpr nonempty')

def sampleBody : Record :=
  match accept sampleLibrary (sampleRequest "broker") with
  | some accepted => auditBody sampleWriter (sampleCall "broker") accepted
  | none => []

def shiftedChecksum (_ body : Bytes) : Digest where
  bytes := List.replicate 32
    (body.foldl (· + ·) 0 - ((dumps sampleLibrary false (.dict sampleBody)).getD []).foldl (· + ·) 0)
  length_eq := List.length_replicate

def zeroLibrary : LedgerLibrary := { strictLibrary with hmacSha256 := shiftedChecksum }

def zeroLedger : Entry :=
  .file (((encodeRecord zeroLibrary sampleKey sampleBody).map (·.2)).getD [])

/-- A file that is not there and a file whose last MAC is 64 zeros end with the same MAC. -/
theorem zero_mac_ambiguous : ¬∀ (lib : LedgerLibrary) (key : Bytes) (ledger other : Entry)
    (n m : Nat) (mac : Text) (records records' : List Record), lib.Canonical →
    loadTail lib key ledger = .ok (n, mac) → loadTail lib key other = .ok (m, mac) →
    decoded lib ledger = some records → decoded lib other = some records' →
    CollisionFree lib key (records ++ records') →
    records.map canonical = records'.map canonical := by
  intro claim
  obtain ⟨count, free, accepted⟩ : (decoded zeroLibrary zeroLedger).map List.length = some 1 ∧
      collisionFree zeroLibrary sampleKey ((decoded zeroLibrary zeroLedger).getD []) = true ∧
      loadTail zeroLibrary sampleKey zeroLedger = .ok (1, zeroMac) := by decide +kernel
  obtain ⟨records', hrecords', hlength'⟩ := Option.map_eq_some_iff.mp count
  rw [hrecords'] at free
  have h := claim zeroLibrary sampleKey .absent zeroLedger 0 1 zeroMac [] records'
    (canonical_of_strict rfl rfl) rfl accepted rfl hrecords' (collisionFree_iff free)
  have lengths := congrArg List.length h
  rw [List.length_map, List.length_map, hlength'] at lengths
  cases lengths

end Ares.Audit
