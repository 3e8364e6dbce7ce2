import Ares.Data.Rose
import Ares.Data.Value

/-! The storage probes of `tools/storage.py`: what `parse_lsblk_json` and `parse_findmnt_json` make
of the documents of `lsblk` and `findmnt`.  The string predicates of Python, SHA-256 and
`json.loads` are parameters. -/

namespace Ares.StorageEvidence

open Data

variable (lib : ProbeLibrary)

/-- The library functions behind the probes. -/
structure ProbeLibrary where
  /-- `json.loads`; `none` is a `ValueError`. -/
  loads : Text → Option Value
  sha256 : Text → Text
  /-- `str.isspace` of one character. -/
  isspace : CodePoint → Bool
  /-- `str.isprintable` of one character. -/
  isprintable : CodePoint → Bool
  /-- `str.isdigit` of one character. -/
  isdigit : CodePoint → Bool
  /-- `int(text)`; `none` is a `ValueError`. -/
  int : Text → Option Int
  /-- `str.casefold`. -/
  casefold : Text → Text

inductive ProbeError
  | invalidJson
  | missing
  /-- `UnicodeEncodeError` of a text with a lone surrogate. -/
  | unencodable
  /-- `ValueError` of `int`. -/
  | digits
deriving DecidableEq

structure BlockDeviceProbe where
  name : Text
  path : Text
  deviceType : Text
  sizeBytes : Nat
  readOnly : Bool
  removable : Bool
  model : Option Text
  vendor : Option Text
  transport : Option Text
  parentPath : Option Text
  filesystemType : Option Text
  filesystemVersion : Option Text
  filesystemUuid : Option Text
  filesystemLabel : Option Text
  mountpoints : List Text
  hardwareIdentity : Option Text
deriving DecidableEq

structure MountProbe where
  source : Text
  target : Text
  filesystemType : Option Text
  options : List Text
deriving DecidableEq

/-! ### Fields of a document -/

/-- `raw.get(key)`, where a missing field and a null are the same. -/
def get (raw : Value) (key : String) : Value :=
  match raw with
  | .dict fields => (fields.lookup (Text.ofString key)).getD .none
  | _ => .none

-- A node of a document with the items of its `children` as the trees below it.
mutual

def tree : Value → Rose Value
  | .dict fields => .node (.dict fields) (childrenOf fields)
  | .none => .node .none []
  | .bool b => .node (.bool b) []
  | .int i => .node (.int i) []
  | .float bits => .node (.float bits) []
  | .str s => .node (.str s) []
  | .list items => .node (.list items) []
  | .other => .node .other []

/-- The trees of `raw.get("children")`, if that is a list. -/
def childrenOf : List (Text × Value) → List (Rose Value)
  | [] => []
  | (key, value) :: fields =>
      if key = Text.ofString "children" then items value else childrenOf fields

def items : Value → List (Rose Value)
  | .list values => trees values
  | .none | .bool _ | .int _ | .float _ | .str _ | .dict _ | .other => []

def trees : List Value → List (Rose Value)
  | [] => []
  | value :: values => tree value :: trees values

end

/-- `value or None`. -/
def nonempty (text : Text) : Option Text := if text = [] then none else some text

/-- `str.strip`. -/
def strip (text : Text) : Text :=
  ((text.dropWhile lib.isspace).reverse.dropWhile lib.isspace).reverse

/-- `str.isdigit`. -/
def isdigit (text : Text) : Bool := text ≠ [] && text.all lib.isdigit

/-- `text.encode("utf-8")` raises nothing: there is no lone surrogate in the text. -/
def encodable (text : Text) : Bool := text.all fun c => c.val < 0xD800 || 0xDFFF < c.val

/-- The characters that `_SAFE_DEVICE` allows after `/dev/`. -/
def deviceChar (c : CodePoint) : Bool :=
  (65 ≤ c.val && c.val ≤ 90) || (97 ≤ c.val && c.val ≤ 122) || (48 ≤ c.val && c.val ≤ 57) ||
    (Text.ofString "_.:+/-").contains c

/-- `_SAFE_DEVICE.fullmatch(path)`. -/
def safeDevice (path : Text) : Bool :=
  let rest := path.drop 5
  (Text.ofString "/dev/").isPrefixOf path && 1 ≤ rest.length && rest.length ≤ 128 &&
    rest.all deviceChar

/-- `_clean`. -/
def clean (value : Value) (limit : Nat) : Option Text :=
  match value with
  | .str s => nonempty (((strip lib s).filter lib.isprintable).take limit)
  | _ => none

/-- The text that `_identity_hash` hashes. -/
def identityText (parts : List Text) : Text :=
  [(0x1F : CodePoint)].intercalate ((parts.map (strip lib)).filter (· ≠ []))

/-- `_identity_hash`. -/
def identityHash (parts : List Text) : Except ProbeError (Option Text) :=
  let cleaned := (parts.map (strip lib)).filter (· ≠ [])
  let text := identityText lib parts
  if cleaned = [] then .ok none
  else if encodable text then .ok (some ((lib.sha256 text).take 32))
  else .error .unencodable

/-- `_nonnegative_int`. -/
def nonnegativeInt (value : Value) : Except ProbeError Nat :=
  match value with
  | .int i => .ok i.toNat
  | .str s =>
    if isdigit lib s then
      match lib.int s with
      | some i => .ok i.toNat
      | none => .error .digits
    else .ok 0
  | _ => .ok 0

/-- `_as_bool`. -/
def asBool (value : Value) : Bool :=
  match value with
  | .bool b => b
  | .int i => i = 1
  | .str s => ["1", "true", "yes"].any fun word => lib.casefold s = Text.ofString word
  | _ => false

/-! ### `lsblk` -/

/-- The checks of `_append_lsblk_device` on a node. -/
def accepted (raw : Value) : Bool :=
  match asText (get raw "path"), asText (get raw "name") with
  | some path, some _ => safeDevice path
  | _, _ => false

/-- The path of a node, as text. -/
def pathOf (raw : Value) : Text := (asText (get raw "path")).getD []

def safeMounts (mountpoints : Value) : List Text :=
  match mountpoints with
  | .list items =>
    (items.filterMap asText).filterMap fun item =>
      if item.head? = some (CodePoint.ofChar '/') && !item.contains 0 then some (item.take 4096)
      else none
  | _ => []

/-- The path of the parent: that of the node above, and otherwise the one that `pkname` names. -/
def parentPathOf (parent : Option Value) (raw : Value) : Option Text :=
  match parent with
  | some above => some (pathOf above)
  | none =>
    match get raw "pkname" with
    | .str name =>
      let candidate := Text.ofString "/dev/" ++ name
      if name ≠ [] && safeDevice candidate then some candidate else none
    | _ => none

def identityParts (raw : Value) : List Text :=
  [get raw "wwn", get raw "serial", get raw "model", get raw "path"].filterMap asText

/-- The probe that `_append_lsblk_device` makes of a node that passed its checks. -/
def lsblkProbe (parent : Option Value) (raw : Value) :
    Except ProbeError BlockDeviceProbe := do
  let identity ← identityHash lib (identityParts raw)
  let size ← nonnegativeInt lib (get raw "size")
  return {
    name := (clean lib (get raw "name") 96).getD (Text.ofString "unknown")
    path := pathOf raw
    deviceType := (clean lib (get raw "type") 24).getD (Text.ofString "unknown")
    sizeBytes := size
    readOnly := asBool lib (get raw "ro")
    removable := asBool lib (get raw "rm")
    model := clean lib (get raw "model") 128
    vendor := clean lib (get raw "vendor") 64
    transport := clean lib (get raw "tran") 32
    parentPath := parentPathOf parent raw
    filesystemType := clean lib (get raw "fstype") 64
    filesystemVersion := clean lib (get raw "fsver") 32
    filesystemUuid := clean lib (get raw "uuid") 128
    filesystemLabel := clean lib (get raw "label") 128
    mountpoints := safeMounts (get raw "mountpoints")
    hardwareIdentity := identity }

/-- `_append_lsblk_device` for the first 256 items. -/
def appendLsblkDevices (raw : List Value) :
    Except ProbeError (List BlockDeviceProbe) :=
  Rose.collectAll accepted (lsblkProbe lib) 512 128 none 256 (trees raw) []

def parseLsblkJson (text : Text) :
    Except ProbeError (List BlockDeviceProbe) :=
  match lib.loads text with
  | none => .error .invalidJson
  | some payload =>
    match asList (get payload "blockdevices") with
    | none => .error .missing
    | some raw => appendLsblkDevices lib raw

/-! ### `findmnt` -/

/-- `text.split(",")`. -/
def splitCommas (text : Text) : List Text := text.splitOn (CodePoint.ofChar ',')

/-- The probe that one turn of the loop of `parse_findmnt_json` makes of an item, if it makes
one. -/
def mountProbe (item : Value) : Option MountProbe :=
  match asText (get item "source"), asText (get item "target") with
  | some source, some target =>
    if target.head? = some (CodePoint.ofChar '/') then
      some {
        source := source.take 512
        target := target.take 4096
        filesystemType := clean lib (get item "fstype") 64
        options :=
          match get item "options" with
          | .str options => ((splitCommas options).filter (· ≠ [])).take 64
          | _ => [] }
    else none
  | _, _ => none

def parseFindmntJson (text : Text) : Except ProbeError (List MountProbe) :=
  match lib.loads text with
  | none => .error .invalidJson
  | some payload =>
    match asList (get payload "filesystems") with
    | none => .error .missing
    | some raw => .ok ((raw.take 512).filterMap (mountProbe lib))

end Ares.StorageEvidence
