import Mathlib.Data.List.Infix
import Mathlib.Data.List.Induction
import Ares.Backups.Planning
import Ares.Data.Except

/-! Copying a tree onto the disk of the destination, file by file. -/

namespace Ares.Backups

open Coop Data

/-! ### The disk -/

namespace Disk

variable {d e : Disk} {rel q : Path} {node : Node} {m : Medium}

theorem at?_of_ne_nil (d : Disk) (h : q ≠ []) : d.at? q = d.lookup q := by
  cases q with
  | nil => exact absurd rfl h
  | cons part rest => rfl

theorem at?_eq_none (h : q ≠ []) : d.at? q = none ↔ ∀ node, (q, node) ∉ d := by
  rw [at?_of_ne_nil d h, List.lookup_eq_none_iff]
  constructor
  · intro hne node hmem
    simpa using hne _ hmem
  · rintro hnot ⟨q', node⟩ hmem
    rw [bne_iff_ne]
    rintro rfl
    exact hnot node hmem

theorem at?_append (h : q ≠ []) : Disk.at? (d ++ e) q = (d.at? q).or (Disk.at? e q) := by
  rw [at?_of_ne_nil _ h, at?_of_ne_nil _ h, at?_of_ne_nil _ h, List.lookup_append]

theorem at?_mono (h : d.at? q = some node) : Disk.at? (d ++ e) q = some node := by
  by_cases hq : q = []
  · subst hq
    exact h
  · rw [at?_append hq, h]
    rfl

theorem at?_last (hrel : rel ≠ []) (hfree : d.at? rel = none) :
    Disk.at? (d ++ [(rel, node)]) rel = some node := by
  rw [at?_append hrel, hfree, at?_of_ne_nil _ hrel]
  simp

theorem isDirectory_iff :
    d.isDirectory q = true ↔ ∃ listed mode, d.at? q = some (.directory listed mode) := by
  rw [isDirectory]
  split
  · next listed mode h => exact iff_of_true rfl ⟨listed, mode, h⟩
  · next h => exact iff_of_false (by decide) fun ⟨listed, mode, hat⟩ => h listed mode hat

theorem isOpen_iff : d.isOpen m q = true ↔
    ∃ listed mode, d.at? q = some (.directory listed mode) ∧ m.locks mode = false := by
  rw [isOpen]
  split
  · next listed mode h => simp [h]
  · next h => exact iff_of_false (by decide) fun ⟨listed, mode, hat, _⟩ => h listed mode hat

theorem isDirectory_of_isOpen (h : d.isOpen m q = true) : d.isDirectory q = true := by
  obtain ⟨listed, mode, hat, -⟩ := isOpen_iff.mp h
  exact isDirectory_iff.mpr ⟨listed, mode, hat⟩

theorem isDirectory_mono (h : d.isDirectory q = true) : Disk.isDirectory (d ++ e) q = true := by
  obtain ⟨listed, mode, hat⟩ := isDirectory_iff.mp h
  exact isDirectory_iff.mpr ⟨listed, mode, at?_mono hat⟩

theorem isOpen_mono (h : d.isOpen m q = true) : Disk.isOpen m (d ++ e) q = true := by
  obtain ⟨listed, mode, hat, hopen⟩ := isOpen_iff.mp h
  exact isOpen_iff.mpr ⟨listed, mode, at?_mono hat, hopen⟩

theorem at?_ne_none (h : d.isDirectory q = true) : d.at? q ≠ none := by
  obtain ⟨listed, mode, hat⟩ := isDirectory_iff.mp h
  simp [hat]

/-- Every file is in a directory. -/
def Closed (d : Disk) : Prop := ∀ entry ∈ d, d.isDirectory entry.1.dropLast = true

theorem mem_of_at? (hq : q ≠ []) (h : d.at? q ≠ none) : ∃ node, (q, node) ∈ d := by
  by_contra hnot
  push Not at hnot
  exact h ((at?_eq_none hq).mpr hnot)

theorem Closed.above (hc : Closed d) (hq : d.at? q ≠ none) {r : Path} (hr : r <+: q) (hne : r ≠ q) :
    d.isDirectory r = true := by
  induction q using List.reverseRecOn with
  | nil => exact absurd (List.prefix_nil.mp hr) hne
  | append_singleton base name ih =>
    obtain ⟨node, hmem⟩ := mem_of_at? (by simp) hq
    have hbase : d.isDirectory base = true := by simpa using hc _ hmem
    rcases List.prefix_concat_iff.mp hr with heq | hr
    · exact absurd heq hne
    · by_cases heq : r = base
      · rwa [heq]
      · exact ih (at?_ne_none hbase) hr heq

theorem Closed.add (hc : Closed d) (hparent : d.isDirectory rel.dropLast = true) :
    Closed (d ++ [(rel, node)]) := by
  intro entry hmem
  rcases List.mem_append.mp hmem with hmem | hmem
  · exact isDirectory_mono (hc entry hmem)
  · rw [List.mem_singleton.mp hmem]
    exact isDirectory_mono hparent

theorem add_eq_some {d' : Disk} : d.add m rel node = some d' ↔
    (d.at? rel = none ∧ d.isOpen m rel.dropLast = true) ∧ d ++ [(rel, node)] = d' := by
  rw [Disk.add, Option.ite_none_right_eq_some, Option.some.injEq]

theorem add_new (hfree : d.at? rel = none) (hparent : d.isOpen m rel.dropLast = true) :
    d.add m rel node = some (d ++ [(rel, node)]) :=
  add_eq_some.mpr ⟨⟨hfree, hparent⟩, rfl⟩

theorem inits_dropLast (h : rel ≠ []) : rel.inits.dropLast = rel.dropLast.inits := by
  obtain ⟨base, name, rfl⟩ := List.eq_nil_or_concat rel |>.resolve_left h
  rw [List.concat_eq_append, List.inits_append]
  simp

theorem Closed.inits (hc : Closed d) (hrel : rel ≠ [])
    (hparent : d.isDirectory rel.dropLast = true) {r : Path} (hr : r ∈ rel.inits.dropLast) :
    d.isDirectory r = true := by
  rw [inits_dropLast hrel, List.mem_inits] at hr
  by_cases heq : r = rel.dropLast
  · rwa [heq]
  · exact hc.above (at?_ne_none hparent) hr heq

theorem mkdir_eq_add (hc : Closed d) (hfree : d.at? rel = none)
    (hparent : d.isDirectory rel.dropLast = true) (listed : Path) (mode : Nat)
    (parents existOk : Bool) : d.mkdir m rel listed mode parents existOk =
      if m.allows mode then d.add m rel (.directory listed mode) else none := by
  have hrel : rel ≠ [] := by
    rintro rfl
    cases hfree
  have hmissing : (rel.inits.dropLast.filter fun p => d.at? p = none) = [] := by
    rw [List.filter_eq_nil_iff]
    intro r hr
    simp [at?_ne_none (hc.inits hrel hparent hr)]
  rw [Disk.mkdir, hfree]
  cases m.allows mode <;> simp [hmissing]

theorem mkdir_exists (h : d.isDirectory rel = true) (listed : Path) (mode : Nat) (parents : Bool) :
    d.mkdir m rel listed mode parents true = some d := by
  obtain ⟨old, oldMode, hat⟩ := isDirectory_iff.mp h
  rw [Disk.mkdir, hat]
  rfl

theorem free_of_mkdir {d' : Disk} {listed : Path} {mode : Nat} {parents : Bool}
    (h : d.mkdir m rel listed mode parents false = some d') : d.at? rel = none := by
  rw [Disk.mkdir] at h
  cases hat : d.at? rel with
  | none => rfl
  | some node =>
    rw [hat] at h
    cases node <;> cases h

theorem alter_last (hrel : rel ≠ []) (hfree : d.at? rel = none) (f : Node → Node) :
    Disk.alter (d ++ [(rel, node)]) rel f = d ++ [(rel, f node)] := by
  have hold : Disk.alter d rel f = d := by
    refine (List.map_congr_left ?_).trans (List.map_id d)
    rintro ⟨q, node⟩ hmem
    have hne : q ≠ rel := by
      rintro rfl
      exact (at?_eq_none hrel).mp hfree node hmem
    exact congrArg (q, ·) (if_neg hne)
  have happend : Disk.alter (d ++ [(rel, node)]) rel f = Disk.alter d rel f ++ [(rel, f node)] := by
    simp [Disk.alter]
  rw [happend, hold]

theorem append_last (hrel : rel ≠ []) (hfree : d.at? rel = none) {listed : Path} {mode : Nat}
    {content block : List UInt8} :
    Disk.append m (d ++ [(rel, .file listed mode content)]) rel block =
      if (content ++ block).length ≤ m.longest then
        some (d ++ [(rel, .file listed mode (content ++ block))]) else none := by
  rw [Disk.append, at?_last hrel hfree]
  simp only [alter_last hrel hfree]

end Disk

/-! ### The tree -/

section Find

variable {policy : BackupPolicy} {deviceId : String}

theorem Reaches.find {entries : Entries} {base : Path} {name : String} {node : Tree}
    (hreach : Reaches policy deviceId entries base name node)
    (hnodup : (entries.map Prod.fst).Nodup) (hsound : SoundIn entries) :
    find? entries (base ++ [name]) = some node := by
  induction hreach with
  | here hmem => exact lookup_of_mem hnodup hmem
  | @inside entries inner dir name info base node hmem _ _ ih =>
    obtain ⟨-, hinner⟩ := soundIn_mem hsound hmem
    have hrest : ∃ part rest, base ++ [name] = part :: rest := by
      cases base with
      | nil => exact ⟨name, [], rfl⟩
      | cons part rest => exact ⟨part, rest ++ [name], rfl⟩
    obtain ⟨part, rest, heq⟩ := hrest
    rw [List.cons_append, heq, find?, lookup_of_mem hnodup hmem, ← heq]
    · exact ih hinner.1 hinner.2
    · simp

theorem find_included {entries : Entries} (hnodup : (entries.map Prod.fst).Nodup)
    (hsound : SoundIn entries) {v : Visit} (hv : v ∈ included policy deviceId entries) :
    find? entries v.relative = some v.node := by
  obtain ⟨base, name, node, hreach, -, rfl⟩ := mem_included.mp hv
  exact hreach.find hnodup hsound

theorem included_legal {entries : Entries} (hsound : SoundIn entries) {v : Visit}
    (hv : v ∈ included policy deviceId entries) :
    v.relative ≠ [] ∧ ∀ part ∈ v.relative, Legal part := by
  obtain ⟨base, name, node, hreach, -, rfl⟩ := mem_included.mp hv
  exact ⟨by simp [visit], hreach.legal hsound⟩

theorem kind_included {entries : Entries} {v : Visit} (hv : v ∈ included policy deviceId entries) :
    (∃ info inner, v.node = .directory info inner) ∨ ∃ info content, v.node = .file info content := by
  obtain ⟨base, name, node, -, hreason, rfl⟩ := mem_included.mp hv
  rw [excludedReason] at hreason
  cases node with
  | directory info inner => exact .inl ⟨info, inner, rfl⟩
  | file info content => exact .inr ⟨info, content, rfl⟩
  | symlink info => split at hreason <;> simp [Tree.kind] at hreason
  | special info =>
    repeat' split at hreason
    all_goals simp_all [Tree.kind]

end Find

/-! ### One file after the other -/

/-- The file that the backup has for a file of the source; `read` is what the reads of a file give. -/
def copyOf (m : Medium) (read : FileInfo → List UInt8 → List UInt8) (place : Path) (v : Visit) :
    Node :=
  match v.node with
  | .file info content => .file (m.listed (place ++ v.relative)) info.mode (read info content)
  | node => .directory (m.listed (place ++ v.relative)) node.info.mode

def copiedBytes (read : FileInfo → List UInt8 → List UInt8) : Tree → Nat
  | .file info content => (read info content).length
  | .directory _ _ | .symlink _ | .special _ => 0

def manifestEntry (lib : Library) (read : FileInfo → List UInt8 → List UInt8) (v : Visit) :
    BackupEntry where
  relativePath := v.relative.posix
  sizeBytes := v.node.size
  mtimeNs := v.node.info.mtimeNs.toNat
  mode := v.node.info.mode
  entryType := match v.node with
    | .file _ _ => .file
    | _ => .directory
  checksumSha256 := match v.node with
    | .file info content => some (lib.contentSha256 (read info content))
    | _ => none

/-- What is on the disk below `place` is what was seen of the source. -/
structure Partial (m : Medium) (read : FileInfo → List UInt8 → List UInt8) (d : Disk) (place : Path)
    (seen : List Visit) : Prop where
  taken : m.takes place = true
  top : d.isOpen m (m.key place) = true
  closed : d.Closed
  named : ∀ u ∈ seen, u.relative ≠ [] ∧ m.takes (place ++ u.relative) = true
  copied : ∀ u ∈ seen, d.at? (m.key (place ++ u.relative)) = some (copyOf m read place u)
  only : ∀ rel node, rel ≠ [] → (m.key place ++ rel, node) ∈ d →
    ∃ u ∈ seen, m.key u.relative = rel ∧ node.listed = m.listed (place ++ u.relative)

/-- The destination takes the copy of an item after those that were seen. -/
structure Admits (m : Medium) (read : FileInfo → List UInt8 → List UInt8) (place : Path)
    (seen : List Visit) (v : Visit) : Prop where
  takes : m.takes (place ++ v.relative) = true
  new : ∀ u ∈ seen, m.key u.relative ≠ m.key v.relative
  unlocked : ∀ u ∈ seen, u.relative = v.relative.dropLast → m.locks u.node.info.mode = false
  allowed : ∀ info inner, v.node = .directory info inner → m.allows info.mode = true
  fits : ∀ info content, v.node = .file info content → (read info content).length ≤ m.longest
  settles : ∀ info content, v.node = .file info content → m.settles v.node.stat = true

section Step

variable {m : Medium} {read : FileInfo → List UInt8 → List UInt8} {d : Disk}
  {place : Path} {seen : List Visit} {v : Visit}

theorem key_append (m : Medium) (a b : Path) : m.key (a ++ b) = m.key a ++ m.key b :=
  List.map_append

theorem key_dropLast (m : Medium) (a : Path) : m.key a.dropLast = (m.key a).dropLast :=
  List.map_dropLast

theorem copyOf_listed (place : Path) (v : Visit) :
    (copyOf m read place v).listed = m.listed (place ++ v.relative) := by
  obtain ⟨relative, node, reason⟩ := v
  cases node <;> rfl

theorem Partial.free_iff (h : Partial m read d place seen) {rel : Path} (hne : rel ≠ []) :
    d.at? (m.key (place ++ rel)) = none ↔ ∀ u ∈ seen, m.key u.relative ≠ m.key rel := by
  constructor
  · intro hfree u hu heq
    have hcopied := h.copied u hu
    rw [key_append, heq, ← key_append, hfree] at hcopied
    cases hcopied
  · intro hnew
    rw [key_append, Disk.at?_eq_none (by simp [Medium.key, hne])]
    intro node hmem
    obtain ⟨u, hu, heq, -⟩ := h.only _ node (by simp [Medium.key, hne]) hmem
    exact hnew u hu heq

theorem Fresh.ne_nil (h : Fresh seen v) : v.relative ≠ [] := by
  obtain ⟨base, name, heq, -⟩ := h.parent
  simp [heq]

theorem Partial.parent (h : Partial m read d place seen) (hf : Fresh seen v) :
    m.takes (place ++ v.relative.dropLast) = true ∧
    d.isDirectory (m.key (place ++ v.relative.dropLast)) = true ∧
    (d.isOpen m (m.key (place ++ v.relative.dropLast)) = true ↔
      ∀ u ∈ seen, u.relative = v.relative.dropLast → m.locks u.node.info.mode = false) := by
  obtain ⟨base, name, heq, hknown⟩ := hf.parent
  have hbase : v.relative.dropLast = base := by rw [heq, List.dropLast_concat]
  rw [hbase]
  rcases hknown with rfl | ⟨t, ht, rfl, -, hkind⟩
  · rw [List.append_nil]
    refine ⟨h.taken, Disk.isDirectory_of_isOpen h.top, iff_of_true h.top fun u hu hnil => ?_⟩
    exact absurd hnil (h.named u hu).1
  · have hdir : ∀ u ∈ seen, u.relative = t.relative →
        d.at? (m.key (place ++ t.relative)) =
          some (.directory (m.listed (place ++ t.relative)) u.node.info.mode) := by
      intro u hu hsame
      have hat := h.copied t ht
      have hcopy : copyOf m read place u = copyOf m read place t := by
        have hu' := h.copied u hu
        rw [hsame, hat] at hu'
        exact (Option.some.inj hu').symm
      rw [hat, ← hcopy]
      cases hnode : u.node with
      | file info content =>
        have hfile : ∃ listed mode content, copyOf m read place t = .file listed mode content :=
          ⟨_, _, _, by rw [← hcopy, copyOf, hnode]⟩
        obtain ⟨listed, mode, content, hfile⟩ := hfile
        cases ht' : t.node <;> simp_all [copyOf, Tree.kind]
      | _ => simp [copyOf, hnode, hsame]
    have ht' := hdir t ht rfl
    refine ⟨(h.named t ht).2, Disk.isDirectory_iff.mpr ⟨_, _, ht'⟩, ?_⟩
    rw [Disk.isOpen_iff]
    constructor
    · rintro ⟨listed, mode, hat, hopen⟩ u hu hsame
      have hmode := (hdir u hu hsame).symm.trans hat
      obtain ⟨-, rfl⟩ := Node.directory.inj (Option.some.inj hmode)
      exact hopen
    · exact fun hall => ⟨_, _, ht', hall t ht rfl⟩

theorem Partial.step (h : Partial m read d place seen) (hf : Fresh seen v)
    (ha : Admits m read place seen v) :
    Partial m read (d ++ [(m.key (place ++ v.relative), copyOf m read place v)]) place (v :: seen) where
  taken := h.taken
  top := Disk.isOpen_mono h.top
  closed := by
    refine h.closed.add ?_
    rw [← key_dropLast, List.dropLast_append_of_ne_nil hf.ne_nil]
    exact (h.parent hf).2.1
  named := List.forall_mem_cons.mpr ⟨⟨hf.ne_nil, ha.takes⟩, h.named⟩
  copied u hu := by
    rcases List.mem_cons.mp hu with rfl | hu
    · exact Disk.at?_last (by simp [Medium.key, hf.ne_nil]) ((h.free_iff hf.ne_nil).mpr ha.new)
    · exact Disk.at?_mono (h.copied u hu)
  only rel node hne hmem := by
    rcases List.mem_append.mp hmem with hmem | hmem
    · obtain ⟨u, hu, heq⟩ := h.only rel node hne hmem
      exact ⟨u, List.mem_cons_of_mem _ hu, heq⟩
    · obtain ⟨heq, rfl⟩ := Prod.mk.inj (List.mem_singleton.mp hmem)
      rw [key_append] at heq
      exact ⟨v, List.mem_cons_self, (List.append_cancel_left heq).symm, copyOf_listed place v⟩

end Step

/-- A path of the machine is a place on its disk, with all that is beneath it. -/
def World.Holds (w : World) (base place : Path) : Prop :=
  ∀ rel, w.onDisk (base ++ rel) = if w.takes (place ++ rel) then some (place ++ rel) else none

section Machine

variable (lib : Library) {w u : World} {base place : Path} {seen : List Visit} {v : Visit}

theorem World.Holds.onDisk (h : w.Holds base place) {rel : Path}
    (htakes : w.takes (place ++ rel) = true) : w.onDisk (base ++ rel) = some (place ++ rel) := by
  rw [h, if_pos htakes]

theorem World.Holds.eq_of_onDisk (h : w.Holds base place) {rel q : Path}
    (hon : w.onDisk (base ++ rel) = some q) : w.takes (place ++ rel) = true ∧ place ++ rel = q := by
  rw [h, Option.ite_none_right_eq_some, Option.some.injEq] at hon
  exact hon

theorem onDisk_of_sourceFile {path : Path} {node : Tree} (h : w.sourceFile path = some node) :
    w.onDisk path = none := by
  rw [World.sourceFile] at h
  cases hb : below w.sourceRoot path with
  | none =>
    rw [hb] at h
    cases h
  | some rel =>
    rw [below_eq_some hb]
    exact onDisk_source w rel

theorem lstat_of_sourceFile {path : Path} {node : Tree} (h : w.sourceFile path = some node) :
    w.lstat path = some node.stat := by
  rw [World.lstat, onDisk_of_sourceFile h, h]
  rfl

theorem content_of_sourceFile {path : Path} {info : FileInfo} {content : List UInt8}
    (h : w.sourceFile path = some (.file info content)) :
    w.content path = some (w.read info content) := by
  rw [World.content, onDisk_of_sourceFile h, h]

section Blocks

variable {path target listed : Path} {d : Disk} {mode : Nat} (hon : w.onDisk path = some target)
  (hne : w.key target ≠ []) (hfree : d.at? (w.key target) = none)
include hon hne hfree

variable (listed mode) in
theorem answer_write (content block : List UInt8) :
    World.answer { w with disk := d ++ [(w.key target, .file listed mode content)] }
        (.write path block) =
      World.change { w with disk := d ++ [(w.key target, .file listed mode content)] }
        (if (content ++ block).length ≤ w.longest then
          some (d ++ [(w.key target, .file listed mode (content ++ block))]) else none) := by
  have hon' : World.onDisk { w with disk := d ++ [(w.key target, .file listed mode content)] } path =
      some target := hon
  rw [World.answer, hon', Option.bind_some]
  exact congrArg (World.change _) (Disk.append_last hne hfree)

theorem serve_writeBlocks (blocks : List (List UInt8)) (content : List UInt8)
    (hfits : (content ++ blocks.flatten).length ≤ w.longest) :
    (writeBlocks path blocks).serve World.server
        { w with disk := d ++ [(w.key target, .file listed mode content)] } =
      (.ok (), { w with
        disk := d ++ [(w.key target, .file listed mode (content ++ blocks.flatten))] }) := by
  induction blocks generalizing content with
  | nil =>
    rw [List.flatten_nil, List.append_nil]
    rfl
  | cons block blocks ih =>
    rw [List.flatten_cons, ← List.append_assoc] at hfits ⊢
    have hshort : (content ++ block).length ≤ w.longest := by
      rw [List.length_append] at hfits
      omega
    have hwrite := answer_write listed mode hon hne hfree content block
    rw [if_pos hshort] at hwrite
    have hsend : World.answer
        { w with disk := d ++ [(w.key target, .file listed mode (content ++ block))] } .send =
        (.ok (), { w with
          disk := d ++ [(w.key target, .file listed mode (content ++ block))] }) := rfl
    simp only [writeBlocks, bind_eq]
    rw [runs_call hwrite, runs_call hsend, ih _ hfits]

theorem writeBlocks_fits {blocks : List (List UInt8)} {content : List UInt8} {r : Unit}
    (hshort : content.length ≤ w.longest)
    (h : (writeBlocks path blocks).serve World.server
      { w with disk := d ++ [(w.key target, .file listed mode content)] } = (.ok r, u)) :
    (content ++ blocks.flatten).length ≤ w.longest := by
  induction blocks generalizing content with
  | nil => simpa using hshort
  | cons block blocks ih =>
    simp only [writeBlocks, bind_eq] at h
    obtain ⟨_, hwrite, h⟩ := attempt_bind_ok h
    rw [answer_write listed mode hon hne hfree] at hwrite h
    obtain ⟨d', hd, hstate⟩ := change_eq_ok hwrite
    obtain ⟨hlong, heq⟩ := Option.ite_none_right_eq_some.mp hd
    obtain rfl := Option.some.inj heq
    rw [hstate] at h
    obtain ⟨_, -, h⟩ := attempt_bind_ok h
    rw [List.flatten_cons, ← List.append_assoc]
    exact ih hlong h

end Blocks

section Regular

variable {item path target : Path} {info : FileInfo} {content : List UInt8}
  (hfile : w.sourceFile item = some (.file info content))
include hfile

theorem answer_openSource : w.answer (.openSource item) =
    (.ok ((Tree.file info content).stat, w.blocks info content, none), w) := by
  rw [World.answer, hfile]
  rfl

/-- `_copy_regular_file` into a directory. -/
theorem serve_copyRegularFile (hon : w.onDisk path = some target)
    (hfree : w.disk.at? (w.key target) = none)
    (hparent : w.disk.isOpen w.toMedium (w.key target).dropLast = true)
    (hfits : (w.read info content).length ≤ w.longest)
    (hsettles : w.settles (Tree.file info content).stat = true) :
    (copyRegularFile lib item path (Tree.file info content).stat).serve World.server w =
      (.ok (lib.contentSha256 (w.read info content), (w.read info content).length), { w with
        disk := w.disk ++
          [(w.key target, .file (w.listed target) info.mode (w.read info content))] }) := by
  let node : Tree := .file info content
  let w₁ : World := { w with disk := w.disk ++ [(w.key target, .file (w.listed target) 0o600 [])] }
  let w₂ : World := { w with
    disk := w.disk ++ [(w.key target, .file (w.listed target) 0o600 (w.read info content))] }
  let w₃ : World := { w with
    disk := w.disk ++ [(w.key target, .file (w.listed target) info.mode (w.read info content))] }
  have hne : w.key target ≠ [] := by
    intro hnil
    rw [hnil] at hfree
    cases hfree
  have hcreate : w.answer (.create path) = (.ok (), w₁) := by
    rw [World.answer, hon, Option.bind_some, Disk.add_new hfree hparent]
    rfl
  have hwrite : (writeBlocks path (w.blocks info content)).serve World.server w₁ = (.ok (), w₂) :=
    serve_writeBlocks hon hne hfree (w.blocks info content) [] hfits
  have hfstat : w₂.answer (.fstat item) = (.ok node.stat, w₂) := by
    have hstat : w₂.lstat item = some node.stat := lstat_of_sourceFile (w := w₂) hfile
    rw [World.answer, hstat]
    rfl
  have hfinish : w₂.answer (.finish path node.stat) = (.ok (), w₃) := by
    have hon₂ : w₂.onDisk path = some target := hon
    have hsettles₂ : w₂.settles node.stat = true := hsettles
    rw [World.answer, hon₂, Option.bind_some, if_pos hsettles₂]
    refine congrArg (fun d => ((.ok () : Except Error Unit), { w with disk := d })) ?_
    exact Disk.alter_last hne hfree _
  have hsame : (decide (node.stat.kind = .regular) && decide (node.stat.inode = node.stat.inode) &&
      decide (node.stat.device = node.stat.device)) = true := by
    simp [node, Tree.stat, Tree.kind]
  have hkept : (decide (node.stat.size = node.stat.size) &&
      decide (node.stat.mtimeNs = node.stat.mtimeNs)) = true := by simp
  simp only [copyRegularFile, bind_eq]
  rw [runs_call (answer_openSource hfile)]
  refine (runs_require hsame).trans ?_
  rw [runs_call hcreate, serve_bind_ok hwrite]
  refine (runs_call hfstat).trans ?_
  refine (runs_require hkept).trans ?_
  rw [runs_call hfinish]
  rfl

theorem copyRegularFile_ok {r : String × Nat}
    (h : (copyRegularFile lib item path (Tree.file info content).stat).serve World.server w =
      (.ok r, u)) :
    r = (lib.contentSha256 (w.read info content), (w.read info content).length) ∧
    ∃ target, w.onDisk path = some target ∧ w.disk.at? (w.key target) = none ∧
      w.disk.isOpen w.toMedium (w.key target).dropLast = true ∧
      (w.read info content).length ≤ w.longest ∧
      w.settles (Tree.file info content).stat = true := by
  simp only [copyRegularFile, bind_eq] at h
  rw [runs_call (answer_openSource hfile)] at h
  obtain ⟨-, h⟩ := require_bind_ok h
  obtain ⟨_, hcreate, h⟩ := attempt_bind_ok h
  obtain ⟨d, hd, hstate⟩ := change_eq_ok hcreate
  have hstate' : (w.answer (.create path)).2 = { w with disk := d } := hstate
  rw [hstate'] at h
  obtain ⟨target, hon, hadd⟩ := Option.bind_eq_some_iff.mp hd
  obtain ⟨⟨hfree, hparent⟩, rfl⟩ := Disk.add_eq_some.mp hadd
  have hne : w.key target ≠ [] := by
    intro hnil
    rw [hnil] at hfree
    cases hfree
  obtain ⟨_, t, hwrite, h⟩ := serve_bind_eq_ok h
  have hfits := writeBlocks_fits hon hne hfree (Nat.zero_le _) hwrite
  obtain ⟨readings, drawn, disk, rfl⟩ := unchanged_of_quiet (quiet_writeBlocks _ _) hwrite
  obtain ⟨_, t, hraise, h⟩ := serve_bind_eq_ok h
  obtain rfl := congrArg Prod.snd hraise
  obtain ⟨_, -, h⟩ := attempt_bind_ok h
  obtain ⟨-, h⟩ := require_bind_ok h
  obtain ⟨_, hfinish, h⟩ := attempt_bind_ok h
  refine ⟨(Except.ok.inj (congrArg Prod.fst h)).symm, target, hon, hfree, hparent, hfits, ?_⟩
  obtain ⟨d', hd', -⟩ := change_eq_ok hfinish
  obtain ⟨q, -, hq⟩ := Option.bind_eq_some_iff.mp hd'
  exact (Option.ite_none_right_eq_some.mp hq).1

end Regular

def Copyable (node : Tree) : Prop :=
  (∃ info inner, node = .directory info inner) ∨ ∃ info content, node = .file info content

/-- The entry that `copy_entry` tries to make of a file. -/
def entryFor (lib : Library) (read : FileInfo → List UInt8 → List UInt8) (v : Visit) :
    Except Error BackupEntry :=
  entryOf v.relative v.node.stat v.node.size (manifestEntry lib read v).entryType
    (manifestEntry lib read v).checksumSha256

theorem entryFor_eq_ok {read : FileInfo → List UInt8 → List UInt8} {entry : BackupEntry}
    (h : entryFor lib read v = .ok entry) : entry = manifestEntry lib read v := by
  rw [entryFor, entryOf] at h
  split at h
  · exact (Except.ok.inj h).symm
  · cases h

section Item

variable {item : Path} (hbase : w.Holds base place) (hfile : w.sourceFile item = some v.node)
  (hkind : Copyable v.node) (hp : Partial w.toMedium w.read w.disk place seen) (hf : Fresh seen v)
include hbase hfile hkind hp hf

/-- An item that the destination admits comes on the disk, also when no entry can be made of it. -/
theorem serve_copyEntry (ha : Admits w.toMedium w.read place seen v) :
    (copyEntry lib base item v.relative).serve World.server w =
      ((entryFor lib w.read v).map (·, copiedBytes w.read v.node), { w with
        disk := w.disk ++ [(w.key (place ++ v.relative), copyOf w.toMedium w.read place v)] }) := by
  let w₁ : World := { w with
    disk := w.disk ++ [(w.key (place ++ v.relative), copyOf w.toMedium w.read place v)] }
  have hon := hbase.onDisk ha.takes
  have hfree := (hp.free_iff hf.ne_nil).mpr ha.new
  have habove : (place ++ v.relative).dropLast = place ++ v.relative.dropLast :=
    List.dropLast_append_of_ne_nil hf.ne_nil
  obtain ⟨htakes, hdir, hopen⟩ := hp.parent hf
  have hopen' := hopen.mpr ha.unlocked
  rw [← habove, key_dropLast] at hdir hopen'
  have hinside : base.isPrefixOf (base ++ v.relative) = true :=
    List.isPrefixOf_iff_prefix.mpr (List.prefix_append _ _)
  have hlstat : w.answer (.lstat item) = (.ok v.node.stat, w) := by
    rw [World.answer, lstat_of_sourceFile hfile]
    rfl
  have hsend : w₁.answer .send = (.ok (), w₁) := rfl
  simp only [copyEntry, bind_eq]
  rw [runs_require hinside, runs_call hlstat]
  rcases hkind with ⟨info, inner, hnode⟩ | ⟨info, content, hnode⟩
  · have hmkdir : w.answer (.mkdir (base ++ v.relative) v.node.stat.mode true false) =
        (.ok (), w₁) := by
      have hmode : v.node.stat.mode = info.mode := by rw [hnode]; rfl
      rw [World.answer, hon, Option.bind_some, hmode, Disk.mkdir_eq_add hp.closed hfree hdir,
        if_pos (ha.allowed info inner hnode), Disk.add_new hfree hopen']
      simp only [World.change, w₁, copyOf, hnode, Tree.info]
    have hdirectory : v.node.stat.kind = .directory := by rw [hnode]; rfl
    rw [hdirectory]
    refine (runs_call hmkdir).trans ?_
    have hentry : entryOf v.relative v.node.stat 0 .directory none = entryFor lib w.read v := by
      simp only [entryFor, manifestEntry, hnode, Tree.size]
    have hnone : copiedBytes w.read v.node = 0 := by rw [hnode]; rfl
    rw [hentry]
    cases hmade : entryFor lib w.read v with
    | ok entry =>
      rw [serve_bind_ok (serve_ofExcept _), runs_call hsend, runs_call hsend, hnone]
      rfl
    | error e => exact serve_bind_error (serve_ofExcept _)
  · have hmkdir : w.answer (.mkdir (base ++ v.relative).dropLast 0o700 true true) =
        (.ok (), w) := by
      rw [List.dropLast_append_of_ne_nil hf.ne_nil, World.answer, hbase.onDisk htakes,
        Option.bind_some, Disk.mkdir_exists (by rwa [← habove, key_dropLast])]
      rfl
    have hregular : v.node.stat.kind = .regular := by rw [hnode]; rfl
    rw [hregular]
    refine (runs_call hmkdir).trans ?_
    have hcopy := serve_copyRegularFile lib (hnode ▸ hfile) hon hfree hopen'
      (ha.fits info content hnode) (hnode ▸ ha.settles info content hnode)
    have hcopied : { w with disk := w.disk ++ [(w.key (place ++ v.relative),
        .file (w.listed (place ++ v.relative)) info.mode (w.read info content))] } = w₁ := by
      simp only [w₁, copyOf, hnode]
    rw [← hnode, hcopied] at hcopy
    rw [serve_bind_ok hcopy]
    have hentry : entryOf v.relative v.node.stat v.node.stat.size .file
        (some (lib.contentSha256 (w.read info content))) = entryFor lib w.read v := by
      simp only [entryFor, manifestEntry, hnode, Tree.stat]
    have hbytes : copiedBytes w.read v.node = (w.read info content).length := by rw [hnode]; rfl
    simp only
    rw [hentry]
    cases hmade : entryFor lib w.read v with
    | ok entry =>
      rw [serve_bind_ok (serve_ofExcept _), runs_call hsend, runs_call hsend, hbytes]
      rfl
    | error e => exact serve_bind_error (serve_ofExcept _)

theorem copyEntry_admits {r : BackupEntry × Nat}
    (h : (copyEntry lib base item v.relative).serve World.server w = (.ok r, u)) :
    Admits w.toMedium w.read place seen v := by
  have habove : (place ++ v.relative).dropLast = place ++ v.relative.dropLast :=
    List.dropLast_append_of_ne_nil hf.ne_nil
  obtain ⟨htakes, hdir, hopen⟩ := hp.parent hf
  rw [← habove, key_dropLast] at hdir hopen
  have hlstat : w.answer (.lstat item) = (.ok v.node.stat, w) := by
    rw [World.answer, lstat_of_sourceFile hfile]
    rfl
  simp only [copyEntry, bind_eq] at h
  obtain ⟨-, h⟩ := require_bind_ok h
  rw [runs_call hlstat] at h
  rcases hkind with ⟨info, inner, hnode⟩ | ⟨info, content, hnode⟩
  · have hdirectory : v.node.stat.kind = .directory := by rw [hnode]; rfl
    have hmode : v.node.stat.mode = info.mode := by rw [hnode]; rfl
    rw [hdirectory] at h
    obtain ⟨_, hmkdir, -⟩ := attempt_bind_ok h
    obtain ⟨d, hd, -⟩ := change_eq_ok hmkdir
    obtain ⟨q, hon, hmade⟩ := Option.bind_eq_some_iff.mp hd
    obtain ⟨htaken, rfl⟩ := hbase.eq_of_onDisk hon
    have hfree := Disk.free_of_mkdir hmade
    rw [Disk.mkdir_eq_add hp.closed hfree hdir, hmode] at hmade
    obtain ⟨hallowed, hadd⟩ := Option.ite_none_right_eq_some.mp hmade
    refine ⟨htaken, (hp.free_iff hf.ne_nil).mp hfree, hopen.mp (Disk.add_eq_some.mp hadd).1.2,
      fun info' inner' heq => ?_, ?_, ?_⟩
    · obtain ⟨rfl, -⟩ := Tree.directory.inj (hnode.symm.trans heq)
      exact hallowed
    · simp [hnode]
    · simp [hnode]
  · have hregular : v.node.stat.kind = .regular := by rw [hnode]; rfl
    have hmkdir : w.answer (.mkdir (base ++ v.relative).dropLast 0o700 true true) =
        (.ok (), w) := by
      rw [List.dropLast_append_of_ne_nil hf.ne_nil, World.answer, hbase.onDisk htakes,
        Option.bind_some, Disk.mkdir_exists (by rwa [← habove, key_dropLast])]
      rfl
    rw [hregular] at h
    have h' := (runs_call hmkdir).symm.trans h
    obtain ⟨r', t, hcopy, -⟩ := serve_bind_eq_ok h'
    rw [hnode] at hcopy
    obtain ⟨-, q, hon, hfree, hparent, hfits, hsettles⟩ :=
      copyRegularFile_ok lib (hnode ▸ hfile) hcopy
    obtain ⟨htaken, rfl⟩ := hbase.eq_of_onDisk hon
    refine ⟨htaken, (hp.free_iff hf.ne_nil).mp hfree, hopen.mp hparent, ?_,
      fun info' content' heq => ?_, fun info' content' heq => ?_⟩
    · simp [hnode]
    · obtain ⟨rfl, rfl⟩ := Tree.file.inj (hnode.symm.trans heq)
      exact hfits
    · rw [hnode]
      exact hsettles

end Item

/-! ### All files -/

section All

variable (m : Medium) (read : FileInfo → List UInt8 → List UInt8)

def AdmitsAll (place : Path) : List Visit → List Visit → Prop
  | _, [] => True
  | seen, v :: visits => Admits m read place seen v ∧ AdmitsAll place (v :: seen) visits

def copies (place : Path) (visits : List Visit) : Disk :=
  visits.map fun v => (m.key (place ++ v.relative), copyOf m read place v)

variable {m read}

theorem Partial.run {d : Disk} {visits : List Visit} (hp : Partial m read d place seen)
    (hf : Ordered seen visits) (ha : AdmitsAll m read place seen visits) :
    Partial m read (d ++ copies m read place visits) place (visits.reverse ++ seen) := by
  induction visits generalizing d seen with
  | nil => simpa [copies] using hp
  | cons v visits ih =>
    have hrest := ih (hp.step hf.1 ha.1) hf.2 ha.2
    simpa [copies] using hrest

end All

section Items

variable {pairs : List (Path × Visit)} (hbase : w.Holds base place)
  (hpairs : ∀ p ∈ pairs, w.sourceFile p.1 = some p.2.node ∧ Copyable p.2.node)
  (hp : Partial w.toMedium w.read w.disk place seen) (hf : Ordered seen (pairs.map (·.2)))
include hbase hpairs hp hf

theorem serve_copyEntries (ha : AdmitsAll w.toMedium w.read place seen (pairs.map (·.2)))
    (hmade : ∀ p ∈ pairs, entryFor lib w.read p.2 = .ok (manifestEntry lib w.read p.2)) :
    (copyEntries lib base (pairs.map fun p => (p.1, p.2.relative))).serve World.server w =
      (.ok ((pairs.map (·.2)).map (manifestEntry lib w.read),
        (pairs.map fun p => copiedBytes w.read p.2.node).sum),
        { w with disk := w.disk ++ copies w.toMedium w.read place (pairs.map (·.2)) }) := by
  induction pairs generalizing w seen with
  | nil =>
    simp only [copies, List.map_nil, List.append_nil]
    rfl
  | cons p pairs ih =>
    rw [List.forall_mem_cons] at hpairs hmade
    have hone := serve_copyEntry lib hbase hpairs.1.1 hpairs.1.2 hp hf.1 ha.1
    rw [hmade.1] at hone
    have hrest := ih (w := { w with
      disk := w.disk ++ [(w.key (place ++ p.2.relative), copyOf w.toMedium w.read place p.2)] })
      hbase hpairs.2
      (hp.step hf.1 ha.1) hf.2 ha.2 hmade.2
    simp only [List.map_cons, copyEntries, bind_eq]
    rw [serve_bind_ok hone]
    refine (serve_bind_ok hrest).trans ?_
    simp only [copies, List.map_cons, List.append_assoc, List.singleton_append, List.sum_cons]
    rfl

theorem copyEntries_eq_ok {r : List BackupEntry × Nat}
    (h : (copyEntries lib base (pairs.map fun p => (p.1, p.2.relative))).serve World.server w =
      (.ok r, u)) :
    AdmitsAll w.toMedium w.read place seen (pairs.map (·.2)) ∧
      ∀ p ∈ pairs, entryFor lib w.read p.2 = .ok (manifestEntry lib w.read p.2) := by
  induction pairs generalizing w u seen r with
  | nil => exact ⟨trivial, by simp⟩
  | cons p pairs ih =>
    rw [List.forall_mem_cons] at hpairs
    simp only [List.map_cons, copyEntries, bind_eq] at h
    obtain ⟨r₁, t, hentry, h⟩ := serve_bind_eq_ok h
    obtain ⟨r₂, t', hrest, -⟩ := serve_bind_eq_ok h
    have ha := copyEntry_admits lib hbase hpairs.1.1 hpairs.1.2 hp hf.1 hentry
    obtain ⟨hmade, rfl⟩ :=
      Prod.mk.inj ((serve_copyEntry lib hbase hpairs.1.1 hpairs.1.2 hp hf.1 ha).symm.trans hentry)
    obtain ⟨entry, hfor, -⟩ := map_eq_ok hmade
    obtain ⟨hall, hentries⟩ := ih (w := { w with
      disk := w.disk ++ [(w.key (place ++ p.2.relative), copyOf w.toMedium w.read place p.2)] })
      hbase hpairs.2
      (hp.step hf.1 ha) hf.2 hrest
    refine ⟨⟨ha, hall⟩, List.forall_mem_cons.mpr ⟨?_, hentries⟩⟩
    rw [hfor, entryFor_eq_ok lib hfor]

end Items

end Machine

end Ares.Backups
