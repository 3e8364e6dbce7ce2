import Ares.Data.Lines
import Mathlib.Algebra.GroupWithZero.Nat

/-! What the diagnostic collectors share: the target, the findings, bounded reading and the labels of
untrusted names.  Digests of evidence are left out. -/

namespace Ares.Diagnostics

open Data

inductive DiagnosticScope
  | aresLiveRuntime | activeSystemRuntime | installedSystemOffline
deriving DecidableEq

inductive DiagnosticSeverity
  | info | warning | error | critical
deriving DecidableEq

structure Target where
  resourceId : String
  fingerprint : String
  scope : DiagnosticScope
deriving DecidableEq

structure DiagnosticFinding where
  id : String
  severity : DiagnosticSeverity
  confidence : Nat
  title : String
  detail : String
  recommendation : Option String
  recommendedCapability : Option String
deriving DecidableEq

/-- What the collectors ask of Python's library. -/
structure TextLibrary where
  sha256 : List Char → List Char
  /-- `\w` of a regular expression. -/
  isWord : Char → Bool
  /-- A line matches `failed|failure|start request repeated`, in either case. -/
  failureLine : List Char → Bool
  /-- A line matches `failed|failure|segfault|out of memory|no space left`, in either case. -/
  errorLine : List Char → Bool

instance lawfulBEq_chars : LawfulBEq (List Char) := inferInstance

/-! ### Reading -/

/-- A file that `stat` finds, with the text that `read_text` decodes. -/
structure TextFile where
  regular : Bool
  size : Nat
  text : List Char
deriving DecidableEq

/-- `_read_bounded`; `none` is a file that cannot be read. -/
def readBounded (file : Option TextFile) (limit : Nat) : List Char :=
  match file with
  | none => []
  | some file => if !file.regular || limit < file.size then [] else file.text

/-! ### Texts -/

/-- `str.strip`. -/
def strip (text : List Char) : List Char :=
  ((text.dropWhile isspace).reverse.dropWhile isspace).reverse

/-- The class `_CONTROL`. -/
def control (c : Char) : Bool :=
  c ≤ '\x08' || c = '\x0b' || c = '\x0c' || ('\x0e' ≤ c && c ≤ '\x1f') || c = '\x7f'

/-- `_clean`. -/
def clean (value : List Char) (limit : Nat) : List Char :=
  ((value.filter fun c => !control c).map fun c => if c = '\r' then ' ' else c).take limit

def asciiAlnum (c : Char) : Bool :=
  ('A' ≤ c && c ≤ 'Z') || ('a' ≤ c && c ≤ 'z') || ('0' ≤ c && c ≤ '9')

/-- The class `[A-Za-z0-9_.@+-]`. -/
def labelChar (c : Char) : Bool := asciiAlnum c || ['_', '.', '@', '+', '-'].contains c

/-- `_safe_label`. -/
def safeLabel (lib : TextLibrary) (value : List Char) (kind : String) : List Char :=
  let cleaned := strip (clean value 96)
  if cleaned.head?.any asciiAlnum && cleaned.length ≤ 96 && cleaned.all labelChar then cleaned
  else "untrusted-".toList ++ kind.toList ++ "-".toList ++ (lib.sha256 cleaned).take 12

def sampleTarget : Target := ⟨"recovery:ares-live", "recovery:1", .aresLiveRuntime⟩

end Ares.Diagnostics
