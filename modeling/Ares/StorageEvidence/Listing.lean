import Ares.StorageEvidence.Probes

/-! `parse_lsblk_json` returns the pre-order listing of the device trees, cut after 512 entries, in
which every child stands behind its parent, unless a listed node has a field that raises. -/

namespace Ares.StorageEvidence

open Data

variable {lib : ProbeLibrary}

/-! ### The reference listing -/

/-- The trees of the first 256 roots and the first 128 children of each node, in which a node
without a safe path or a name is left out with all below it. -/
def deviceTrees (raw : List Value) : List (Rose Value) :=
  Rose.pruneAll accepted 128 256 (trees raw)

/-- The first 512 nodes of the device trees in pre-order, each with the nodes above it. -/
def listing (raw : List Value) : List (List Value × Value) :=
  (Rose.branchesAll [] (deviceTrees raw)).take 512

theorem listing_led (raw : List Value) : Rose.Led [] (listing raw) :=
  (Rose.branchesAll_led [] (deviceTrees raw)).take 512

theorem appendLsblkDevices_eq (raw : List Value) :
    appendLsblkDevices lib raw =
      (listing raw).mapM fun entry => lsblkProbe lib entry.1.head? entry.2 := by
  have h := Rose.collectAll_eq accepted (lsblkProbe lib) 512 128 [] 256 (trees raw) []
  rw [List.head?_nil] at h
  rw [appendLsblkDevices, h, Rose.emitted]
  change ((listing raw).mapM fun entry => lsblkProbe lib entry.1.head? entry.2).map ([] ++ ·) = _
  cases (listing raw).mapM fun entry => lsblkProbe lib entry.1.head? entry.2 <;> rfl

/-! ### Probes of single nodes -/

/-- A size of digits is one that `int` reads. -/
def legibleSize (lib : ProbeLibrary) (size : Value) : Bool :=
  match size with
  | .str s => !isdigit lib s || (lib.int s).isSome
  | _ => true

/-- The text that identifies the node has no lone surrogate, and its size can be read. -/
def legible (lib : ProbeLibrary) (raw : Value) : Bool :=
  encodable (identityText lib (identityParts raw)) && legibleSize lib (get raw "size")

theorem identityHash_isOk (parts : List Text) :
    (∃ identity, identityHash lib parts = .ok identity) ↔ encodable (identityText lib parts) := by
  simp only [identityHash]
  split
  · next hempty =>
    have htext : encodable (identityText lib parts) := by
      rw [identityText, hempty]
      rfl
    exact ⟨fun _ => htext, fun _ => ⟨none, rfl⟩⟩
  · split
    · next htext => exact ⟨fun _ => htext, fun _ => ⟨_, rfl⟩⟩
    · next htext => exact ⟨fun ⟨_, h⟩ => by simp at h, fun h => absurd h htext⟩

theorem nonnegativeInt_isOk (value : Value) :
    (∃ n, nonnegativeInt lib value = .ok n) ↔ legibleSize lib value := by
  cases value with
  | str s =>
    cases hdigit : isdigit lib s with
    | false => simp [nonnegativeInt, legibleSize, hdigit]
    | true => cases hint : lib.int s <;> simp [nonnegativeInt, legibleSize, hdigit, hint]
  | _ => simp [nonnegativeInt, legibleSize]

theorem lsblkProbe_isOk (parent : Option Value) (raw : Value) :
    (∃ probe, lsblkProbe lib parent raw = .ok probe) ↔ legible lib raw := by
  rw [legible, Bool.and_eq_true, ← identityHash_isOk, ← nonnegativeInt_isOk]
  constructor
  · rintro ⟨probe, h⟩
    obtain ⟨identity, hidentity, h⟩ := bind_eq_ok h
    obtain ⟨size, hsize, -⟩ := bind_eq_ok h
    exact ⟨⟨identity, hidentity⟩, ⟨size, hsize⟩⟩
  · rintro ⟨⟨identity, hidentity⟩, ⟨size, hsize⟩⟩
    rw [lsblkProbe, hidentity, hsize]
    exact ⟨_, rfl⟩

theorem lsblkProbe_path {parent : Option Value} {raw : Value} {probe : BlockDeviceProbe}
    (h : lsblkProbe lib parent raw = .ok probe) :
    probe.path = pathOf raw ∧ probe.parentPath = parentPathOf parent raw := by
  obtain ⟨identity, -, h⟩ := bind_eq_ok h
  obtain ⟨size, -, h⟩ := bind_eq_ok h
  obtain rfl := Except.ok.inj h
  exact ⟨rfl, rfl⟩

/-! ### The result -/

/-- The probe of a listed node: its parent is the node directly above it, and `pkname` names one
for a root. -/
structure Lists (lib : ProbeLibrary) (entry : List Value × Value) (probe : BlockDeviceProbe) :
    Prop where
  path : probe.path = pathOf entry.2
  child : ∀ up above, entry.1 = up :: above → probe.parentPath = some (pathOf up)
  root : entry.1 = [] → probe.parentPath = parentPathOf none entry.2
  probed : lsblkProbe lib entry.1.head? entry.2 = .ok probe

theorem lists_of_probe {entry : List Value × Value} {probe : BlockDeviceProbe}
    (h : lsblkProbe lib entry.1.head? entry.2 = .ok probe) : Lists lib entry probe where
  path := (lsblkProbe_path h).1
  child up above hentry := by
    rw [(lsblkProbe_path h).2, hentry]
    rfl
  root hentry := by rw [(lsblkProbe_path h).2, hentry, List.head?_nil]
  probed := h

/-- Every listed child stands behind the probe that its `parent_path` names. -/
def Preceded (entries : List (List Value × Value)) (probes : List BlockDeviceProbe) : Prop :=
  ∀ (i : Nat) (up : Value) (above : List Value) (value : Value),
    entries[i]? = some (up :: above, value) →
      ∃ j < i, entries[j]? = some (above, up) ∧ ∃ parent probe : BlockDeviceProbe,
        probes[j]? = some parent ∧ probes[i]? = some probe ∧ probe.parentPath = some parent.path

theorem preceded_of_lists {entries : List (List Value × Value)} {probes : List BlockDeviceProbe}
    (led : Rose.Led [] entries) (h : List.Forall₂ (Lists lib) entries probes) :
    Preceded entries probes := by
  intro i up above value hi
  obtain ⟨hlt, hget⟩ := List.getElem?_eq_some_iff.mp hi
  have hsplit : entries = entries.take i ++ (up :: above, value) :: entries.drop (i + 1) := by
    rw [← hget, ← List.drop_eq_getElem_cons hlt, List.take_append_drop]
  rcases led _ _ _ hsplit with htop | ⟨parent, rest, hentry, hm⟩
  · cases htop
  · obtain ⟨rfl, rfl⟩ := List.cons.inj hentry
    obtain ⟨j, hj, hparent⟩ := List.mem_iff_getElem.mp hm
    rw [List.length_take] at hj
    rw [List.getElem_take] at hparent
    have hlength := h.length_eq
    have hup := h.get (i := j) (by omega) (by omega)
    have hself := h.get hlt (by omega)
    simp only [List.get_eq_getElem, hparent, hget] at hup hself
    refine ⟨j, by omega, List.getElem?_eq_some_iff.mpr ⟨_, hparent⟩, _, _,
      List.getElem?_eq_getElem (by omega), List.getElem?_eq_getElem (by omega), ?_⟩
    rw [hself.child up above rfl, hup.path]

/-- The call returns one probe for each entry of the reference listing, in its order. -/
def ReturnsListing (lib : ProbeLibrary) (text : Text) (raw : List Value) : Prop :=
  ∃ probes, parseLsblkJson lib text = .ok probes ∧ List.Forall₂ (Lists lib) (listing raw) probes ∧
    Preceded (listing raw) probes

theorem parse_eq {text : Text} {payload : Value} {raw : List Value}
    (hloads : lib.loads text = some payload)
    (hraw : asList (get payload "blockdevices") = some raw) :
    parseLsblkJson lib text =
      (listing raw).mapM fun entry => lsblkProbe lib entry.1.head? entry.2 := by
  rw [parseLsblkJson, hloads]
  simp only [hraw, appendLsblkDevices_eq]

theorem lists_of_parse {text : Text} {payload : Value} {raw : List Value}
    {probes : List BlockDeviceProbe} (hloads : lib.loads text = some payload)
    (hraw : asList (get payload "blockdevices") = some raw)
    (hparse : parseLsblkJson lib text = .ok probes) :
    List.Forall₂ (Lists lib) (listing raw) probes := by
  rw [parse_eq hloads hraw] at hparse
  exact (mapM_eq_ok hparse).imp fun _ _ => lists_of_probe

theorem parse_returns {text : Text} {payload : Value} {raw : List Value}
    (hloads : lib.loads text = some payload)
    (hraw : asList (get payload "blockdevices") = some raw)
    (h : ∀ entry ∈ listing raw, legible lib entry.2) :
    ∃ probes, parseLsblkJson lib text = .ok probes := by
  rw [parse_eq hloads hraw]
  generalize listing raw = entries at h
  induction entries with
  | nil => exact ⟨[], rfl⟩
  | cons entry entries ih =>
    obtain ⟨probe, hprobe⟩ := (lsblkProbe_isOk entry.1.head? entry.2).mpr (h entry (by simp))
    obtain ⟨probes, hprobes⟩ := ih fun e he => h e (List.mem_cons_of_mem _ he)
    rw [List.mapM_cons, hprobe]
    exact ⟨probe :: probes, by rw [hprobes]; rfl⟩

/-- For a document with a `blockdevices` array the call returns the listing exactly when every
listed node is legible. -/
theorem returns_listing_iff (lib : ProbeLibrary) (text : Text) (payload : Value)
    (raw : List Value) (hloads : lib.loads text = some payload)
    (hraw : asList (get payload "blockdevices") = some raw) :
    ReturnsListing lib text raw ↔ ∀ entry ∈ listing raw, legible lib entry.2 := by
  constructor
  · rintro ⟨probes, -, hlists, -⟩ entry hm
    obtain ⟨i, hi, rfl⟩ := List.mem_iff_getElem.mp hm
    have hentry := hlists.get hi (hlists.length_eq ▸ hi)
    exact (lsblkProbe_isOk _ _).mp ⟨_, hentry.probed⟩
  · intro h
    obtain ⟨probes, hparse⟩ := parse_returns hloads hraw h
    have hlists := lists_of_parse hloads hraw hparse
    exact ⟨probes, hparse, hlists, preceded_of_lists (listing_led raw) hlists⟩

/-! ### A size that is digits and no number -/

/-- `str.isspace`, `str.isprintable`, `str.isdigit`, `int` and `str.casefold` on Latin-1 texts, with
tables for the documents and the digests. -/
def sampleLibrary (documents : List (Text × Value)) (digests : List (Text × Text)) :
    ProbeLibrary where
  loads text := documents.lookup text
  sha256 text := (digests.lookup text).getD []
  isspace c := c.val = 32 || (9 ≤ c.val && c.val ≤ 13) || (28 ≤ c.val && c.val ≤ 31) ||
    c.val = 0x85 || c.val = 0xA0
  isprintable c := (32 ≤ c.val && c.val ≤ 126) || (0xA1 ≤ c.val && c.val ≠ 0xAD)
  isdigit c := (48 ≤ c.val && c.val ≤ 57) || c.val = 0xB2 || c.val = 0xB3 || c.val = 0xB9
  int text :=
    if text ≠ [] && text.all fun c => 48 ≤ c.val && c.val ≤ 57 then
      some (text.foldl (fun n c => 10 * n + (c.val - 48 : Nat)) 0 : Nat)
    else none
  casefold text := text.map fun c => if 65 ≤ c.val ∧ c.val ≤ 90 then c + 32 else c

def object (fields : List (String × Value)) : Value :=
  .dict (fields.map fun field => (Text.ofString field.1, field.2))

def diskDigest : Text × Text :=
  (Text.ofString "/dev/sda",
    Text.ofString "36b8377a5b0cc272a5b4e50929623191c027543c4facb1c6f3c35bacaa7455ef")

def partitionDigest : Text × Text :=
  (Text.ofString "/dev/sda1",
    Text.ofString "d8d8d2c47b672edb91407c0014286b472673b2ff9d6636fd567d11650986ba3c")

def plainText : Text :=
  Text.ofString ("\x7b\"blockdevices\":[\x7b\"name\":\"sda\",\"path\":\"/dev/sda\",\"type\":\"disk\"," ++
    "\"size\":\"512\",\"children\":[\x7b\"name\":\"sda1\",\"path\":\"/dev/sda1\",\"type\":\"part\"," ++
    "\"size\":\"256\"\x7d]\x7d]\x7d")

def plainRoots : List Value :=
  [object [("name", .lit "sda"), ("path", .lit "/dev/sda"), ("type", .lit "disk"),
    ("size", .lit "512"),
    ("children", .list [object [("name", .lit "sda1"), ("path", .lit "/dev/sda1"),
      ("type", .lit "part"), ("size", .lit "256")]])]]

theorem returns_listing_sample : ReturnsListing
      (sampleLibrary [(plainText, object [("blockdevices", .list plainRoots)])]
        [diskDigest, partitionDigest]) plainText plainRoots ∧ (listing plainRoots).length = 2 := by
  refine ⟨(returns_listing_iff _ plainText (object [("blockdevices", .list plainRoots)]) plainRoots
    (by simp [sampleLibrary]) (by simp [object, get, asList])).mpr ?_, by decide +kernel⟩
  rw [← List.all_eq_true]
  decide +kernel

def superscriptText : Text :=
  Text.ofString
    "\x7b\"blockdevices\":[\x7b\"name\":\"sda\",\"path\":\"/dev/sda\",\"size\":\"²\"\x7d]\x7d"

def superscriptRoots : List Value :=
  [object [("name", .lit "sda"), ("path", .lit "/dev/sda"), ("size", .lit "²")]]

def superscriptLibrary : ProbeLibrary :=
  sampleLibrary [(superscriptText, object [("blockdevices", .list superscriptRoots)])] [diskDigest]

/-- `"²".isdigit()` is true and `int("²")` raises, so the only disk is lost with its listing. -/
theorem superscript_size_raises : superscriptLibrary.loads superscriptText =
        some (object [("blockdevices", .list superscriptRoots)]) ∧
      (listing superscriptRoots).map (pathOf ·.2) = [Text.ofString "/dev/sda"] ∧
      parseLsblkJson superscriptLibrary superscriptText = .error .digits ∧
      ¬ ReturnsListing superscriptLibrary superscriptText superscriptRoots := by
  have hparse : parseLsblkJson superscriptLibrary superscriptText = .error .digits := by
    decide +kernel
  refine ⟨by simp [superscriptLibrary, sampleLibrary], by decide +kernel, hparse, ?_⟩
  rintro ⟨probes, h, -⟩
  rw [hparse] at h
  cases h

end Ares.StorageEvidence
