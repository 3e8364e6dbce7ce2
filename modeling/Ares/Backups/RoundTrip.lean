import Ares.Backups.Creating
import Ares.Backups.Verifying

/-! Planning, creating and verifying a backup of a tree, one after the other. -/

namespace Ares.Backups

open Coop Data

/-! ### Moving a directory -/

section Rename

variable {d : Disk} {source target listed : Path}

theorem Node.listed_relist (node : Node) : (node.relist listed).listed = listed := by
  cases node <;> rfl

theorem Node.stat_relist (node : Node) : (node.relist listed).stat = node.stat := by
  cases node <;> rfl

theorem Disk.at?_rename (hs : source ≠ []) (ht : target ≠ [])
    (hapart : ∀ entry ∈ d, ¬target <+: entry.1) (rel : Path) :
    (d.rename source target listed).at? (target ++ rel) = (d.at? (source ++ rel)).map fun node =>
      node.relist (listed ++ node.listed.drop source.length) := by
  rw [at?_of_ne_nil _ (by simp [ht]), at?_of_ne_nil _ (by simp [hs])]
  induction d with
  | nil => rfl
  | cons entry d ih =>
    obtain ⟨q, node⟩ := entry
    have hrest := ih fun entry hmem => hapart entry (List.mem_cons_of_mem _ hmem)
    have hhead : ¬target <+: q := hapart _ List.mem_cons_self
    rw [Disk.rename, List.map_cons, List.lookup_cons]
    cases hb : below source q with
    | some r =>
      obtain rfl := below_eq_some hb
      have hsame : (target ++ rel == target ++ r) = (source ++ rel == source ++ r) := by
        rw [Bool.eq_iff_iff, beq_iff_eq, beq_iff_eq, List.append_cancel_left_eq,
          List.append_cancel_left_eq]
      simp only [List.lookup_cons, hsame]
      split
      · rfl
      · exact hrest
    | none =>
      have hout : (source ++ rel == q) = false := by
        rw [beq_eq_false_iff_ne]
        rintro rfl
        rw [below_append] at hb
        cases hb
      have hout' : (target ++ rel == q) = false := by
        rw [beq_eq_false_iff_ne]
        rintro rfl
        exact hhead (List.prefix_append _ _)
      simp only [List.lookup_cons, hout, hout']
      exact hrest

theorem Disk.mem_rename (hapart : ∀ entry ∈ d, ¬target <+: entry.1) {rel : Path} {node : Node} :
    (target ++ rel, node) ∈ d.rename source target listed ↔
      ∃ old, (source ++ rel, old) ∈ d ∧
        node = old.relist (listed ++ old.listed.drop source.length) := by
  constructor
  · intro hmem
    obtain ⟨⟨q, old⟩, hq, heq⟩ := List.mem_map.mp hmem
    cases hb : below source q with
    | some r =>
      simp only [hb, Prod.mk.injEq] at heq
      obtain ⟨hrel, rfl⟩ := heq
      obtain rfl := List.append_cancel_left hrel
      exact ⟨old, below_eq_some hb ▸ hq, rfl⟩
    | none =>
      simp only [hb, Prod.mk.injEq] at heq
      exact absurd ⟨rel, heq.1.symm⟩ (hapart _ hq)
  · rintro ⟨old, hold, rfl⟩
    refine List.mem_map.mpr ⟨_, hold, ?_⟩
    simp only [below_append]

theorem Disk.isDirectory_rename (hs : source ≠ []) (ht : target ≠ [])
    (hapart : ∀ entry ∈ d, ¬target <+: entry.1) (rel : Path) :
    (d.rename source target listed).isDirectory (target ++ rel) = d.isDirectory (source ++ rel) := by
  rw [isDirectory, isDirectory, at?_rename hs ht hapart]
  cases d.at? (source ++ rel) with
  | none => rfl
  | some node => cases node <;> rfl

theorem Disk.mem_walk {root rel : Path} :
    rel ∈ d.walk root ↔ ∃ below node, (root ++ below, node) ∈ d ∧ below ≠ [] ∧
      (∀ above ∈ below.inits.dropLast, d.isDirectory (root ++ above) = true) ∧
      node.listed.drop root.length = rel := by
  rw [walk, List.mem_map]
  constructor
  · rintro ⟨⟨q, node⟩, hmem, rfl⟩
    obtain ⟨hq, hany⟩ := List.mem_filter.mp hmem
    obtain ⟨rel, hb, hrel⟩ := (Option.any_eq_true _ _).mp hany
    simp only [Bool.and_eq_true, decide_eq_true_eq, List.all_eq_true] at hrel
    exact ⟨rel, node, below_eq_some hb ▸ hq, hrel.1, hrel.2, rfl⟩
  · rintro ⟨below, node, hmem, hne, hall, rfl⟩
    refine ⟨_, List.mem_filter.mpr ⟨hmem, ?_⟩, rfl⟩
    simpa [below_append, hne] using hall

end Rename

/-! ### Texts of paths -/

theorem isAbsolute_posix {path : Path} (hne : path ≠ []) (h : ∀ part ∈ path, Named part) :
    isAbsolute path.posix = false := by
  cases path with
  | nil => exact absurd rfl hne
  | cons part rest =>
    have hpart := h part List.mem_cons_self
    have hhead : (Path.posix (part :: rest)).toList.head? = part.toList.head? := by
      rw [Path.posix, String.toList_ofList]
      cases hchars : part.toList with
      | nil => exact absurd hchars hpart.toList_ne_nil
      | cons c chars =>
        cases rest with
        | nil => simp [hchars, List.intercalate]
        | cons next rest => simp [hchars, List.intercalate]
    rw [isAbsolute, hhead]
    exact hpart.relative

theorem contains_parent {path : Path} (h : ∀ part ∈ path, Legal part) :
    path.contains ".." = false := by
  rw [List.contains_eq_mem, decide_eq_false_iff_not]
  exact fun hmem => (h _ hmem).notParent rfl

/-! ### Verifying -/

section Verifying

variable {lib : Library} {w : World}

theorem runs_lstat {path : Path} {info : Stat} (h : w.lstat path = some info) :
    (lstat? path).serve World.server w = (.ok (some info), w) := by
  have hcall : w.answer (.lstat path) = (.ok info, w) := by
    rw [World.answer, h]
    rfl
  rw [lstat?, serve_handle, bind_eq, runs_call hcall]
  rfl

theorem runs_regularFileExists {path : Path} {info : Stat} (h : w.lstat path = some info)
    (hkind : info.kind = .regular) :
    (regularFileExistsNoSymlink path).serve World.server w = (.ok true, w) := by
  rw [regularFileExistsNoSymlink, bind_eq, serve_bind_ok (runs_lstat h)]
  simp [hkind]

theorem runs_compareSource (lib : Library) {path : Path} {info : Stat} {content : List UInt8}
    (h : w.lstat path = some info) (hkind : info.kind = .regular)
    (hcontent : w.content path = some content) :
    (compareSource lib path (lib.contentSha256 content)).serve World.server w = (.ok true, w) := by
  have hread : ((attempt (.readRegular path)).observe : Tool World _).serve World.server w =
      (.ok (.ok content), w) := by
    rw [serve_observe, runs_attempt, World.answer, hcontent]
    rfl
  rw [compareSource, bind_eq, serve_bind_ok (runs_regularFileExists h hkind), if_pos rfl,
    bind_eq, serve_bind_ok hread]
  simp

/-- A file of the source, as a backup at `root` has it; it was copied to `place`. -/
structure Kept (w : World) (sourceRoot root place : Path) (v : Visit) : Prop where
  nonempty : v.relative ≠ []
  legal : ∀ part ∈ v.relative, Legal part
  kind : Copyable v.node
  copied : w.lstat (root ++ v.relative) = some (copyOf w.toMedium w.read place v).stat
  same : ∀ info content, v.node = .file info content →
    w.content (root ++ v.relative) =
      (if w.hides info.mode then none else some (w.read info content)) ∧
    w.content (sourceRoot ++ v.relative) = some (w.read info content) ∧
    w.lstat (sourceRoot ++ v.relative) = some v.node.stat

/-- The copy can be read, and is as long as `st_size` says of the source. -/
def Faithful (w : World) (v : Visit) : Prop :=
  ∀ info content, v.node = .file info content →
    w.hides info.mode = false ∧ (w.read info content).length = content.length

variable {sourceRoot root place : Path}

/-- The loop over the entries finds a file that is kept as it is in the source. -/
theorem runs_checkEntry {v : Visit} (h : Kept w sourceRoot root place v) (found : Findings) :
    (checkEntry lib sourceRoot root found (manifestEntry lib w.read v)).serve World.server w =
      (match v.node with
      | .file info content =>
        if w.hides info.mode then .error .os
        else if (w.read info content).length = content.length then .ok { found with
          verifiedFiles := found.verifiedFiles + 1
          verifiedBytes := found.verifiedBytes + content.length }
        else .ok { found with mismatches := lib.token v.relative.posix :: found.mismatches }
      | _ => .ok found, w) := by
  have hrel : components (manifestEntry lib w.read v).relativePath = v.relative :=
    components_posix (named_of_legal h.legal)
  have hplain : (isAbsolute (manifestEntry lib w.read v).relativePath ||
      v.relative.contains "..") = false := by
    rw [contains_parent h.legal, Bool.or_false]
    exact isAbsolute_posix h.nonempty (named_of_legal h.legal)
  have hinside : root.isPrefixOf (root ++ v.relative) = true :=
    List.isPrefixOf_iff_prefix.mpr (List.prefix_append _ _)
  rw [checkEntry, hrel]
  simp only [hplain, Bool.false_eq_true, if_false, bind_eq]
  rw [runs_require hinside, serve_bind_ok (runs_lstat h.copied)]
  rcases h.kind with ⟨info, inner, hnode⟩ | ⟨info, content, hnode⟩
  · simp [manifestEntry, hnode, copyOf, Node.stat]
  · obtain ⟨hcopy, hsource, hstat⟩ := h.same info content hnode
    simp only [manifestEntry, hnode, copyOf, Node.stat, Tree.size, ne_eq, not_true_eq_false,
      if_false]
    cases hhidden : w.hides info.mode with
    | true =>
      have hread : (attempt (.readRegular (root ++ v.relative))).serve World.server w =
          ((.error .os, w) : Except Error (List UInt8) × World) := by
        rw [runs_attempt, World.answer, hcopy, hhidden]
        rfl
      exact serve_bind_error hread
    | false =>
      have hread : w.answer (.readRegular (root ++ v.relative)) =
          (.ok (w.read info content), w) := by
        rw [World.answer, hcopy, hhidden]
        rfl
      rw [runs_call hread]
      by_cases hsized : (w.read info content).length = content.length
      · have hregular : v.node.stat.kind = .regular := by rw [hnode]; rfl
        have hcompare := runs_compareSource lib hstat hregular hsource
        simp only [decide_false, Bool.or_self, Bool.false_eq_true, if_false, not_true_eq_false,
          hsized, if_true]
        rw [serve_bind_ok hcompare]
        rfl
      · simp only [hsized, not_false_eq_true, decide_true, Bool.or_true, if_true, if_false,
          Bool.false_eq_true]
        rfl

theorem runs_checkEntries {visits : List Visit} (h : ∀ v ∈ visits, Kept w sourceRoot root place v)
    (hf : ∀ v ∈ visits, Faithful w v) (found : Findings) :
    (checkEntries lib sourceRoot root found (visits.map (manifestEntry lib w.read))).serve
        World.server w =
      (.ok { found with
        verifiedFiles := found.verifiedFiles + visits.countP (·.node.kind = .regular)
        verifiedBytes := found.verifiedBytes + (visits.map (·.node.size)).sum }, w) := by
  induction visits generalizing found with
  | nil => rfl
  | cons v visits ih =>
    rw [List.forall_mem_cons] at h hf
    have hone : (checkEntry lib sourceRoot root found (manifestEntry lib w.read v)).serve
        World.server w = (.ok { found with
          verifiedFiles := found.verifiedFiles + if v.node.kind = .regular then 1 else 0
          verifiedBytes := found.verifiedBytes + v.node.size }, w) := by
      rw [runs_checkEntry h.1]
      rcases h.1.kind with ⟨info, inner, hnode⟩ | ⟨info, content, hnode⟩
      · simp [hnode, Tree.kind, Tree.size]
      · simp [hnode, hf.1 info content hnode, Tree.kind, Tree.size]
    simp only [List.map_cons, checkEntries, bind_eq]
    rw [serve_bind_ok hone, ih h.2 hf.2]
    simp only [List.countP_cons, List.sum_cons, decide_eq_true_eq]
    congr 3
    · omega
    · omega

theorem faithful_of_checkEntries {visits : List Visit}
    (h : ∀ v ∈ visits, Kept w sourceRoot root place v) {found found' : Findings} {u : World}
    (hrun : (checkEntries lib sourceRoot root found (visits.map (manifestEntry lib w.read))).serve
      World.server w = (.ok found', u)) (hclean : found'.mismatches = []) :
    found.mismatches = [] ∧ u = w ∧ ∀ v ∈ visits, Faithful w v := by
  induction visits generalizing found with
  | nil =>
    obtain ⟨hfound, rfl⟩ := Prod.mk.inj hrun
    obtain rfl := Except.ok.inj hfound
    exact ⟨hclean, rfl, by simp⟩
  | cons v visits ih =>
    rw [List.forall_mem_cons] at h
    simp only [List.map_cons, checkEntries, bind_eq] at hrun
    obtain ⟨next, t, hone, hrest⟩ := serve_bind_eq_ok hrun
    rw [runs_checkEntry h.1] at hone
    obtain ⟨hmade, rfl⟩ := Prod.mk.inj hone
    obtain ⟨hnext, rfl, hall⟩ := ih h.2 hrest
    rcases h.1.kind with ⟨info, inner, hnode⟩ | ⟨info, content, hnode⟩
    · rw [hnode] at hmade
      obtain rfl := Except.ok.inj hmade
      refine ⟨hnext, rfl, List.forall_mem_cons.mpr ⟨fun info' content heq => ?_, hall⟩⟩
      cases hnode.symm.trans heq
    · rw [hnode] at hmade
      simp only at hmade
      split at hmade
      · cases hmade
      · next hshown =>
        split at hmade
        · next hsized =>
          obtain rfl := Except.ok.inj hmade
          refine ⟨hnext, rfl, List.forall_mem_cons.mpr ⟨fun info' content' heq => ?_, hall⟩⟩
          obtain ⟨rfl, rfl⟩ := Tree.file.inj (hnode.symm.trans heq)
          exact ⟨Bool.eq_false_iff.mpr hshown, hsized⟩
        · obtain rfl := Except.ok.inj hmade
          cases hnext

end Verifying

/-! ### The backup of a ready machine -/

section Done

variable {lib : Library} {w : World} {policy : BackupPolicy} {info : FileInfo} {entries : Entries}
  {sourceMount destinationMount : MountInfo}

/-- The verification that the backup gets. -/
def verified (w : World) (policy : BackupPolicy) (entries : Entries)
    (sourceMount : MountInfo) (backup : Backup) : BackupVerification where
  id := w.ids (w.drawn + 2)
  backupId := backup.id
  createdAt := w.clock (w.readings + 4)
  status := .verified
  expectedFileCount := (scanEntries policy sourceMount.deviceId entries).fileCount
  verifiedFileCount := (scanEntries policy sourceMount.deviceId entries).fileCount
  expectedSizeBytes := (scanEntries policy sourceMount.deviceId entries).bytesTotal
  verifiedSizeBytes := (scanEntries policy sourceMount.deviceId entries).bytesTotal
  manifestValid := true
  checksumMismatches := []
  missingEntries := []
  unexpectedEntries := []
  sourceChangedEntries := []
  message := "Backup manifest, file counts, sizes and SHA-256 checksums verified."

section

variable (h : Ready w policy info entries sourceMount destinationMount)
include h

variable (lib) in
theorem Ready.done_at (rel : Path) :
    (w.done lib policy entries sourceMount).disk.at? (w.key (w.finalRel ++ rel)) =
      ((w.filled lib policy entries sourceMount).at? (w.key (w.partialRel ++ rel))).map fun node =>
        node.relist (w.listed w.finalRel ++ node.listed.drop (w.key w.partialRel).length) := by
  rw [key_append, key_append]
  exact Disk.at?_rename (by simp [World.partialRel, Medium.key])
    (by simp [World.finalRel, Medium.key]) (fun _ hmem => h.filled_apart hmem) (w.key rel)

theorem Ready.done_onDisk {rel : Path} (htakes : w.takes (w.partialRel ++ rel) = true) :
    (w.done lib policy entries sourceMount).onDisk (w.finalPath ++ rel) =
      some (w.finalRel ++ rel) := by
  have hpath : w.finalPath ++ rel = w.destinationRoot ++ (w.finalRel ++ rel) :=
    List.append_assoc _ _ _
  rw [hpath]
  exact h.onDisk (h.usable.shorter rel htakes)

variable (lib) in
theorem Ready.done_lstat {rel : Path} (htakes : w.takes (w.partialRel ++ rel) = true) :
    (w.done lib policy entries sourceMount).lstat (w.finalPath ++ rel) =
      ((w.filled lib policy entries sourceMount).at? (w.key (w.partialRel ++ rel))).map
        Node.stat := by
  have hat := h.done_at lib rel
  rw [World.lstat, h.done_onDisk htakes]
  refine (congrArg (Option.map Node.stat) hat).trans ?_
  rw [Option.map_map]
  refine congrArg (Option.map · _) ?_
  funext node
  exact Node.stat_relist node

theorem Ready.done_content {rel listed : Path} {mode : Nat} {content : List UInt8}
    (htakes : w.takes (w.partialRel ++ rel) = true)
    (hat : (w.filled lib policy entries sourceMount).at? (w.key (w.partialRel ++ rel)) =
      some (.file listed mode content)) :
    (w.done lib policy entries sourceMount).content (w.finalPath ++ rel) =
      if w.hides mode then none else some content := by
  have hdone := h.done_at lib rel
  rw [hat] at hdone
  have hfile : (w.done lib policy entries sourceMount).disk.at?
      ((w.done lib policy entries sourceMount).key (w.finalRel ++ rel)) =
        some (.file _ mode content) := hdone
  rw [World.content, h.done_onDisk htakes]
  simp only [hfile]
  rfl

omit h in
theorem done_sourceFile : (w.done lib policy entries sourceMount).sourceFile = w.sourceFile :=
  rfl

section Taken

variable (ht : Taken lib w policy entries sourceMount)
include ht

theorem Ready.taken_copied :
    Partial w.toMedium w.read (w.prepared ++ w.copiedFiles policy entries sourceMount) w.partialRel
      (included policy sourceMount.deviceId entries).reverse :=
  h.copied (h.taken_iff.mp ht).1

theorem Ready.filled_copied {v : Visit} (hv : v ∈ included policy sourceMount.deviceId entries) :
    (w.filled lib policy entries sourceMount).at? (w.key (w.partialRel ++ v.relative)) =
      some (copyOf w.toMedium w.read w.partialRel v) :=
  Disk.at?_mono ((h.taken_copied ht).copied v (List.mem_reverse.mpr hv))

theorem Ready.filled_manifest :
    (w.filled lib policy entries sourceMount).at? (w.key (w.partialRel ++ [manifestName])) =
      some (.file (w.listed (w.partialRel ++ [manifestName])) 0o600
        (w.encoded lib policy entries sourceMount)) := by
  refine Disk.at?_last (by simp [Medium.key]) (((h.taken_copied ht).free_iff (by simp)).mpr ?_)
  intro v hv
  exact (h.taken_iff.mp ht).2.2.2 v (List.mem_reverse.mp hv)

theorem Ready.kept {v : Visit} (hv : v ∈ included policy sourceMount.deviceId entries) :
    Kept (w.done lib policy entries sourceMount) w.sourceRoot w.finalPath w.partialRel v where
  nonempty := (included_legal h.sound hv).1
  legal := (included_legal h.sound hv).2
  kind := kind_included hv
  copied := by
    rw [h.done_lstat lib (ht.takes _ _ (includes_of_mem hv)), h.filled_copied ht hv]
    rfl
  same info content hnode := by
    have hne := (included_legal h.sound hv).1
    have hfile : (w.done lib policy entries sourceMount).sourceFile (w.sourceRoot ++ v.relative) =
        some v.node := by
      rw [done_sourceFile, h.sourceFile hne]
      exact find_included h.nodup h.sound hv
    have hat := h.filled_copied ht hv
    rw [copyOf, hnode] at hat
    exact ⟨h.done_content (ht.takes _ _ (includes_of_mem hv)) hat,
      content_of_sourceFile (hnode ▸ hfile), lstat_of_sourceFile hfile⟩

theorem Ready.mem_walk {rel : Path} :
    rel ∈ (w.done lib policy entries sourceMount).disk.walk (w.key w.finalRel) ↔
      rel = [manifestName] ∨
        ∃ v ∈ included policy sourceMount.deviceId entries, rel = w.listed v.relative := by
  have hlisted : ∀ rel, (w.listed (w.partialRel ++ rel)).drop (w.key w.partialRel).length =
      w.listed rel := by
    intro rel
    rw [Medium.listed, List.map_append]
    exact List.drop_left' (by simp [Medium.key])
  have hdrop : ∀ node : Node, (node.relist (w.listed w.finalRel ++
      node.listed.drop (w.key w.partialRel).length)).listed.drop (w.key w.finalRel).length =
        node.listed.drop (w.key w.partialRel).length := by
    intro node
    rw [Node.listed_relist]
    exact List.drop_left' rfl
  have hmanifest : w.listed [manifestName] = [manifestName] := by
    rw [Medium.listed, List.map_singleton, h.usable.manifest]
  have hclosed : Disk.Closed (w.filled lib policy entries sourceMount) := by
    refine (h.taken_copied ht).closed.add ?_
    rw [← key_dropLast, List.dropLast_concat]
    exact Disk.isDirectory_of_isOpen (h.taken_copied ht).top
  rw [Disk.mem_walk]
  constructor
  · rintro ⟨below, node, hmem, hne, -, rfl⟩
    obtain ⟨old, hold, rfl⟩ := (Disk.mem_rename fun _ hmem => h.filled_apart hmem).mp hmem
    rw [hdrop]
    rcases List.mem_append.mp hold with hold | hold
    · obtain ⟨v, hv, -, heq⟩ := (h.taken_copied ht).only below old hne hold
      exact .inr ⟨v, List.mem_reverse.mp hv, by rw [heq, hlisted]⟩
    · obtain ⟨-, rfl⟩ := Prod.mk.inj (List.mem_singleton.mp hold)
      exact .inl ((hlisted _).trans hmanifest)
  · intro hrel
    obtain ⟨rel', old, hne, hold, rfl⟩ : ∃ rel' old, rel' ≠ [] ∧
        (w.key (w.partialRel ++ rel'), old) ∈ w.filled lib policy entries sourceMount ∧
        old.listed.drop (w.key w.partialRel).length = rel := by
      rcases hrel with rfl | ⟨v, hv, rfl⟩
      · refine ⟨[manifestName], _, by simp, List.mem_append_right _ List.mem_cons_self, ?_⟩
        exact (hlisted _).trans hmanifest
      · refine ⟨v.relative, _, (included_legal h.sound hv).1, List.mem_append_left _
          (List.mem_append_right _ (List.mem_map_of_mem hv)), ?_⟩
        rw [copyOf_listed, hlisted]
    rw [key_append] at hold
    refine ⟨w.key rel', _, (Disk.mem_rename fun _ hmem => h.filled_apart hmem).mpr ⟨old, hold, rfl⟩,
      by simpa [Medium.key] using hne, fun above habove => ?_, hdrop old⟩
    have hne' : w.key rel' ≠ [] := by simpa [Medium.key] using hne
    rw [Disk.inits_dropLast hne', List.mem_inits] at habove
    have hproper : above ≠ w.key rel' := by
      rintro rfl
      have hlen := habove.length_le
      have hpos := List.length_pos_iff.mpr hne'
      rw [List.length_dropLast] at hlen
      omega
    have hsome : (w.filled lib policy entries sourceMount).at?
        (w.key w.partialRel ++ w.key rel') ≠ none := by
      rw [Ne, Disk.at?_eq_none (by simp [hne'])]
      exact fun hnone => hnone old hold
    refine (Disk.isDirectory_rename (by simp [World.partialRel, Medium.key])
      (by simp [World.finalRel, Medium.key]) (fun _ hmem => h.filled_apart hmem) above).trans ?_
    refine hclosed.above hsome ?_ (by simpa using hproper)
    exact (List.prefix_append_right_inj _).mpr (habove.trans (List.dropLast_prefix _))

omit ht in
theorem Ready.key_listed {v : Visit} (hv : v ∈ included policy sourceMount.deviceId entries) :
    w.key (w.listed v.relative) = w.key v.relative := by
  rw [Medium.key, Medium.listed, List.map_map]
  refine List.map_congr_left fun part hpart => ?_
  exact (h.usable.legal part ((included_legal h.sound hv).2 part hpart)).2

omit ht in
theorem Ready.legal_listed {v : Visit} (hv : v ∈ included policy sourceMount.deviceId entries) :
    ∀ part ∈ w.listed v.relative, Legal part := by
  rw [Medium.listed, List.forall_mem_map]
  exact fun part hpart => (h.usable.legal part ((included_legal h.sound hv).2 part hpart)).1

omit ht in
theorem Ready.expectedPaths_eq : expectedPaths (w.manifest lib policy entries sourceMount) =
    manifestName :: (included policy sourceMount.deviceId entries).map (·.relative.posix) := by
  have hrel : ∀ v ∈ included policy sourceMount.deviceId entries,
      components (manifestEntry lib w.read v).relativePath = v.relative := fun v hv =>
    components_posix (named_of_legal (included_legal h.sound hv).2)
  have hall : (w.manifest lib policy entries sourceMount).entries.filter (fun entry =>
      !isAbsolute entry.relativePath && !(components entry.relativePath).contains "..") =
        (included policy sourceMount.deviceId entries).map (manifestEntry lib w.read) := by
    refine List.filter_eq_self.mpr fun entry hentry => ?_
    obtain ⟨v, hv, rfl⟩ := List.mem_map.mp hentry
    obtain ⟨hne, hlegal⟩ := included_legal h.sound hv
    rw [hrel v hv, contains_parent hlegal, manifestEntry,
      isAbsolute_posix hne (named_of_legal hlegal)]
    rfl
  rw [expectedPaths, hall, List.map_map]
  exact congrArg _ (List.map_congr_left fun v hv => congrArg Path.posix (hrel v hv))

theorem Ready.expected_iff :
    (∀ rel ∈ (w.done lib policy entries sourceMount).disk.walk (w.key w.finalRel),
        rel.posix ∈ expectedPaths (w.manifest lib policy entries sourceMount)) ↔
      ∀ v ∈ included policy sourceMount.deviceId entries, w.listed v.relative = v.relative := by
  have hown : ∀ part ∈ [manifestName], Named part := by
    rw [List.forall_mem_singleton]
    exact ⟨by decide, by decide, by decide⟩
  have hposix : Path.posix [manifestName] = manifestName := by simp [Path.posix, List.intercalate]
  rw [h.expectedPaths_eq]
  constructor
  · intro hall v hv
    have hkey := h.key_listed hv
    have hnamed := named_of_legal (h.legal_listed hv)
    rcases List.mem_cons.mp (hall _ ((h.mem_walk ht).mpr (.inr ⟨v, hv, rfl⟩))) with heq | hmem
    · rw [posix_inj hnamed hown (heq.trans hposix.symm)] at hkey
      exact absurd hkey.symm ((h.taken_iff.mp ht).2.2.2 v hv)
    · obtain ⟨u, hu, heq⟩ := List.mem_map.mp hmem
      have hlisted := posix_inj (named_of_legal (included_legal h.sound hu).2) hnamed heq
      rw [← hlisted] at hkey ⊢
      exact ht.apart _ _ _ _ (includes_of_mem hu) (includes_of_mem hv) hkey
  · intro hlisted rel hrel
    rcases (h.mem_walk ht).mp hrel with rfl | ⟨v, hv, rfl⟩
    · rw [hposix]
      exact List.mem_cons_self
    · rw [hlisted v hv]
      exact List.mem_cons_of_mem _ (List.mem_map_of_mem hv)

theorem Ready.unexpectedPaths_iff : (unexpectedPaths lib w.finalPath
        (expectedPaths (w.manifest lib policy entries sourceMount))).serve World.server
        (w.done lib policy entries sourceMount) =
      (.ok [], w.done lib policy entries sourceMount) ↔
      ∀ v ∈ included policy sourceMount.deviceId entries, w.listed v.relative = v.relative := by
  let u := w.done lib policy entries sourceMount
  have hwalk : u.answer (.walkTree w.finalPath) = (.ok (u.disk.walk (w.key w.finalRel)), u) := by
    have hon : u.onDisk (w.destinationRoot ++ w.finalRel) = some w.finalRel :=
      h.onDisk (h.usable.takes _ (by simp))
    have hpath : w.finalPath = w.destinationRoot ++ w.finalRel := rfl
    rw [World.answer, hpath, hon]
    rfl
  rw [← h.expected_iff ht, unexpectedPaths, bind_eq, runs_call hwalk]
  refine Prod.mk.injEq _ _ _ _ ▸ ?_
  rw [and_iff_left rfl, Except.ok.injEq, sorted_tokens_eq_nil, List.filter_eq_nil_iff]
  simp [u]

end Taken

/-! ### Verifying the backup -/

/-- The condition under which the source can be stored: the destination takes it, has its files as
they were, and lists them as they were named. -/
structure Storable (lib : Library) (w : World) (policy : BackupPolicy) (entries : Entries)
    (sourceMount : MountInfo) : Prop extends Taken lib w policy entries sourceMount where
  shown : ∀ rel info content,
    Includes policy sourceMount.deviceId entries rel (.file info content) →
    w.hides info.mode = false
  /-- As many bytes are read as `st_size` says. -/
  sized : ∀ rel info content,
    Includes policy sourceMount.deviceId entries rel (.file info content) →
    (w.read info content).length = content.length
  listed : ∀ rel node, Includes policy sourceMount.deviceId entries rel node → w.listed rel = rel

omit h in
theorem Storable.faithful (hs : Storable lib w policy entries sourceMount) :
    ∀ v ∈ included policy sourceMount.deviceId entries, Faithful w v := by
  intro v hv info content hnode
  have hin := includes_of_mem hv
  rw [hnode] at hin
  exact ⟨hs.shown _ _ _ hin, hs.sized _ _ _ hin⟩

omit h in
theorem Storable.of_faithful (ht : Taken lib w policy entries sourceMount)
    (hf : ∀ v ∈ included policy sourceMount.deviceId entries, Faithful w v)
    (hl : ∀ v ∈ included policy sourceMount.deviceId entries, w.listed v.relative = v.relative) :
    Storable lib w policy entries sourceMount where
  toTaken := ht
  shown rel info content hin := by
    obtain ⟨v, hv, -, hnode⟩ := includes_iff.mp hin
    exact (hf v hv info content hnode).1
  sized rel info content hin := by
    obtain ⟨v, hv, -, hnode⟩ := includes_iff.mp hin
    exact (hf v hv info content hnode).2
  listed rel node hin := by
    obtain ⟨v, hv, rfl, -⟩ := includes_iff.mp hin
    exact hl v hv

omit h in
theorem Storable.total (hs : Storable lib w policy entries sourceMount) :
    bytesDone w policy entries sourceMount =
      (scanEntries policy sourceMount.deviceId entries).bytesTotal := by
  refine congrArg List.sum (List.map_congr_left fun v hv => ?_)
  rcases kind_included hv with ⟨info, inner, hnode⟩ | ⟨info, content, hnode⟩
  · simp [hnode, copiedBytes, Tree.size]
  · simp [hnode, copiedBytes, Tree.size, (hs.faithful v hv info content hnode).2]

section Verify

variable (ht : Taken lib w policy entries sourceMount)
  (hloads : lib.loadsManifest (w.encoded lib policy entries sourceMount) =
    some (w.manifest lib policy entries sourceMount))
include ht

theorem Ready.runs_safeBackupRoot : (safeBackupRoot w.finalPath).serve World.server
    (w.done lib policy entries sourceMount) =
      (.ok true, w.done lib policy entries sourceMount) := by
  obtain ⟨listed, mode, hat, -⟩ := Disk.isOpen_iff.mp (h.taken_copied ht).top
  have hfilled : (w.filled lib policy entries sourceMount).at? (w.key (w.partialRel ++ [])) =
      some (.directory listed mode) := by
    rw [List.append_nil]
    exact Disk.at?_mono hat
  have htop : (w.done lib policy entries sourceMount).lstat (w.finalPath ++ []) = _ :=
    h.done_lstat lib (by rw [List.append_nil]; exact (h.taken_copied ht).taken)
  rw [hfilled, List.append_nil] at htop
  rw [safeBackupRoot, bind_eq, serve_bind_ok (runs_lstat htop)]
  rfl

include hloads in
theorem Ready.runs_manifestMatches : (destinationManifestMatches lib w.finalPath
    (w.manifest lib policy entries sourceMount)).serve World.server
      (w.done lib policy entries sourceMount) =
        (.ok true, w.done lib policy entries sourceMount) := by
  have hcontent := h.done_content (h.usable.takes _ (by simp)) (h.filled_manifest ht)
  rw [h.usable.shown] at hcontent
  have hread : (w.done lib policy entries sourceMount).answer
      (.readBounded (w.finalPath ++ [manifestName]) maxManifestBytes) =
        (.ok (some (w.encoded lib policy entries sourceMount)),
          w.done lib policy entries sourceMount) := by
    rw [World.answer, hcontent]
    simp only [Bool.false_eq_true, if_false, Option.filter_some, decide_eq_true ht.small, if_true]
  rw [destinationManifestMatches, bind_eq, runs_call hread, Option.bind_some, hloads]
  simp only [decide_true, Bool.true_and]
  exact congrArg (fun b => (Except.ok b, w.done lib policy entries sourceMount)) (decide_eq_true rfl)

/-- What is left of the verification when the manifest is found to be the same. -/
def judge (lib : Library) (w : World) (policy : BackupPolicy) (entries : Entries)
    (sourceMount : MountInfo) (backup : Backup) : Tool World BackupVerification := do
  let manifest := w.manifest lib policy entries sourceMount
  let found ← checkEntries lib w.sourceRoot w.finalPath .none manifest.entries
  let unexpected ← unexpectedPaths lib w.finalPath (expectedPaths manifest)
  let id ← attempt .randomId
  let createdAt ← attempt .now
  pure {
    id
    backupId := backup.id
    createdAt
    status := (verdict found unexpected).1
    expectedFileCount := manifest.fileCount
    verifiedFileCount := found.verifiedFiles
    expectedSizeBytes := manifest.totalSizeBytes
    verifiedSizeBytes := found.verifiedBytes
    manifestValid := true
    checksumMismatches := found.mismatches.mergeSort
    missingEntries := found.missing.mergeSort
    unexpectedEntries := unexpected
    sourceChangedEntries := found.sourceChanged.mergeSort
    message := (verdict found unexpected).2 }

include hloads in
theorem Ready.runs_judge {backup : Backup}
    (hbackup : backup.destination = w.backupDestination destinationMount) :
    (verifyBackup lib backup (w.manifest lib policy entries sourceMount)).serve World.server
        (w.done lib policy entries sourceMount) =
      (judge lib w policy entries sourceMount backup).serve World.server
        (w.done lib policy entries sourceMount) := by
  have hroot : components backup.destination.backupPath = w.finalPath := by
    rw [hbackup]
    exact components_str (named_of_legal h.legal_final)
  have hsource : components (w.manifest lib policy entries sourceMount).source.path =
      w.sourceRoot := components_str (named_of_legal h.sourceLegal)
  have hchecksum : (w.manifest lib policy entries sourceMount).manifestChecksumSha256 =
      lib.manifestSha256 (w.manifest lib policy entries sourceMount).toManifestPayload := rfl
  simp only [verifyBackup, judge, bind_eq]
  rw [hroot, hsource, serve_bind_ok (h.runs_safeBackupRoot ht)]
  simp only [Bool.not_true, Bool.false_eq_true, if_false, hchecksum, ne_eq, not_true_eq_false]
  rw [serve_bind_ok (h.runs_manifestMatches ht hloads)]
  simp only [Bool.not_true, Bool.false_eq_true, if_false]

include hloads in
theorem Ready.storable_of_verified {backup : Backup}
    (hbackup : backup.destination = w.backupDestination destinationMount)
    {v : BackupVerification} {u : World}
    (hrun : (verifyBackup lib backup (w.manifest lib policy entries sourceMount)).serve World.server
      (w.done lib policy entries sourceMount) = (.ok v, u)) (hv : v.status = .verified) :
    Storable lib w policy entries sourceMount := by
  rw [h.runs_judge ht hloads hbackup] at hrun
  simp only [judge, bind_eq] at hrun
  obtain ⟨found, t, hfound, hrun⟩ := serve_bind_eq_ok hrun
  obtain ⟨unexpected, t', hunexpected, hrun⟩ := serve_bind_eq_ok hrun
  obtain ⟨_, -, hrun⟩ := attempt_bind_ok hrun
  obtain ⟨_, -, hrun⟩ := attempt_bind_ok hrun
  obtain rfl := Except.ok.inj (congrArg Prod.fst hrun)
  obtain ⟨hclean, rfl⟩ := verdict_verified.mp hv
  obtain ⟨-, rfl, hfaithful⟩ :=
    faithful_of_checkEntries (fun v hv => h.kept ht hv) hfound hclean.mismatches
  have hstill : t' = w.done lib policy entries sourceMount := by
    rw [unexpectedPaths, bind_eq] at hunexpected
    obtain ⟨_, -, hrest⟩ := attempt_bind_ok hunexpected
    exact (congrArg Prod.snd hrest).symm
  rw [hstill] at hunexpected
  exact .of_faithful ht hfaithful ((h.unexpectedPaths_iff ht).mp hunexpected)

end Verify

theorem Ready.runs_verifyBackup (hs : Storable lib w policy entries sourceMount)
    (hloads : lib.loadsManifest (w.encoded lib policy entries sourceMount) =
      some (w.manifest lib policy entries sourceMount)) {backup : Backup}
    (hbackup : backup.destination = w.backupDestination destinationMount) :
    ((verifyBackup lib backup (w.manifest lib policy entries sourceMount)).serve World.server
      (w.done lib policy entries sourceMount)).1 =
      .ok (verified w policy entries sourceMount backup) := by
  let u := w.done lib policy entries sourceMount
  have ht := hs.toTaken
  have hcheck : (checkEntries lib w.sourceRoot w.finalPath .none
      (w.manifest lib policy entries sourceMount).entries).serve World.server u =
        (.ok ⟨[], [], [], (scanEntries policy sourceMount.deviceId entries).fileCount,
          (scanEntries policy sourceMount.deviceId entries).bytesTotal⟩, u) := by
    refine (runs_checkEntries (fun v hv => h.kept ht hv) hs.faithful .none).trans ?_
    simp [Findings.none, scanEntries, u]
  have hlisted := (h.unexpectedPaths_iff ht).mpr fun v hv =>
    hs.listed _ _ (includes_of_mem hv)
  have hid : u.answer .randomId = (.ok (w.ids (w.drawn + 2)), { u with drawn := w.drawn + 3 }) := rfl
  have hnow : World.answer { u with drawn := w.drawn + 3 } .now = (.ok (w.clock (w.readings + 4)),
      { u with drawn := w.drawn + 3, readings := w.readings + 5 }) := rfl
  rw [h.runs_judge ht hloads hbackup]
  simp only [judge, bind_eq]
  rw [serve_bind_ok hcheck, serve_bind_ok hlisted, runs_call hid, runs_call hnow]
  simp only [List.mergeSort_nil]
  rfl

theorem Ready.createBackup_iff
    (htime : w.clock (w.readings + 2) < w.clock (w.readings + 1) + minutes 15)
    {r : BackupManifest} {u : World} :
    (createBackup lib (w.plan lib policy entries sourceMount destinationMount)).serve World.server
        w.planned = (.ok r, u) ↔
      (Taken lib w policy entries sourceMount ∧ bytesDone w policy entries sourceMount =
        (scanEntries policy sourceMount.deviceId entries).bytesTotal) ∧
      r = w.manifest lib policy entries sourceMount ∧
      u = w.done lib policy entries sourceMount := by
  rw [← h.fillPartial_iff, createBackup, bind_eq,
    serve_bind_ok (runs_revalidatePlan h htime)]
  constructor
  · intro hrun
    cases hfill : (fillPartial lib (w.plan lib policy entries sourceMount destinationMount)
        w.sourceRoot (w.destinationRoot ++ ["ARES"]) (w.destinationRoot ++ w.finalRel)
        (w.destinationRoot ++ w.partialRel)).serve World.server
        { w.begun with disk := w.prepared } with
    | mk result t =>
      cases result with
      | ok manifest => exact ((h.runs_copyBackup hfill).1 _ rfl).symm.trans hrun
      | error e =>
        obtain ⟨e', he'⟩ := (h.runs_copyBackup hfill).2 e rfl
        have hok := congrArg Prod.fst hrun
        cases he'.symm.trans hok
  · intro hfill
    exact (h.runs_copyBackup hfill).1 _ rfl

theorem Ready.runs_createBackup (hs : Storable lib w policy entries sourceMount)
    (htime : w.clock (w.readings + 2) < w.clock (w.readings + 1) + minutes 15) :
    (createBackup lib (w.plan lib policy entries sourceMount destinationMount)).serve World.server
        w.planned =
      (.ok (w.manifest lib policy entries sourceMount), w.done lib policy entries sourceMount) :=
  (h.createBackup_iff htime).mpr ⟨⟨hs.toTaken, hs.total⟩, rfl, rfl⟩

end

def completedSample (plan : BackupPlan) : Backup where
  id := plan.backupId
  createdAt := 3
  source := plan.source
  destination := plan.destination
  size := 2
  fileCount := 1
  status := .completed
  checksum := none
  verificationStatus := .verified
  metadata := []
  createdBy := "local"
  sessionId := "session-1"
  planId := plan.id
  execution := ⟨"execution-1", plan.backupId, some "workflow-1", .completed, none, none, none, none⟩

/-- Planning, creating and verifying one after the other: the backup is verified with the counts of
the plan, and has every regular file that is not excluded, with its content. -/
def RoundTrips (lib : Library) (w : World) (policy : BackupPolicy) (entries : Entries)
    (deviceId sourcePath destinationPath : String) : Prop :=
  ∃ plan w₁, w.runs (buildPlan lib sourcePath destinationPath policy) = (.ok plan, w₁) ∧
    ∃ manifest w₂, w₁.runs (createBackup lib plan) = (.ok manifest, w₂) ∧
      (∀ backup : Backup, backup.destination = plan.destination →
        ∃ v w₃, w₂.runs (verifyBackup lib backup manifest) = (.ok v, w₃) ∧ v.status = .verified ∧
          v.verifiedFileCount = plan.includedFileCount ∧
          v.verifiedSizeBytes = plan.source.estimatedSizeBytes) ∧
      ∀ base name info content,
        Reaches policy deviceId entries base name (.file info content) →
        excludedReason policy deviceId name (.file info content) = none →
        w₂.content (components plan.destination.backupPath ++ (base ++ [name])) =
          some (w.read info content)

section

variable {sourcePath destinationPath : String}
  (h : Ready w policy info entries sourceMount destinationMount)
  (hdoc : w.Documented policy entries sourceMount destinationMount)
  (hs : Names sourcePath w.sourceRoot) (hd : Names destinationPath w.destinationRoot)
  (htime : w.clock (w.readings + 2) < w.clock (w.readings + 1) + minutes 15)
include h hdoc hs hd htime

variable (hloads : lib.loadsManifest (w.encoded lib policy entries sourceMount) =
  some (w.manifest lib policy entries sourceMount))
include hloads

theorem RoundTrips.storable
    (hround : RoundTrips lib w policy entries sourceMount.deviceId sourcePath destinationPath) :
    Storable lib w policy entries sourceMount := by
  obtain ⟨plan, w₁, hbuilt, manifest, w₂, hcreated, hverified, -⟩ := hround
  rw [World.runs, runs_buildPlan h hdoc hs hd] at hbuilt
  obtain ⟨heq, rfl⟩ := Prod.mk.inj hbuilt
  obtain rfl := Except.ok.inj heq
  obtain ⟨⟨ht, -⟩, rfl, rfl⟩ := (h.createBackup_iff htime).mp hcreated
  obtain ⟨v, w₃, hrun, hstatus, -⟩ := hverified
    (completedSample (w.plan lib policy entries sourceMount destinationMount)) rfl
  exact h.storable_of_verified ht hloads rfl hrun hstatus

theorem Storable.roundTrips (hstorable : Storable lib w policy entries sourceMount) :
    RoundTrips lib w policy entries sourceMount.deviceId sourcePath destinationPath := by
  refine ⟨_, _, runs_buildPlan h hdoc hs hd, _, _, h.runs_createBackup hstorable htime,
    fun backup hbackup => ?_, fun base name info' content hreach hreason => ?_⟩
  · refine ⟨verified w policy entries sourceMount backup, _,
      Prod.ext (h.runs_verifyBackup hstorable hloads hbackup) rfl, rfl, rfl, rfl⟩
  · have hin : Includes policy sourceMount.deviceId entries (base ++ [name])
        (.file info' content) := ⟨base, name, rfl, hreach, hreason⟩
    have hfinal : components
        (w.plan lib policy entries sourceMount destinationMount).destination.backupPath =
          w.finalPath := components_str (named_of_legal h.legal_final)
    obtain ⟨v, hv, hrel, hnode⟩ := includes_iff.mp hin
    have hcontent := ((h.kept hstorable.toTaken hv).same info' content hnode).1
    have hshown : (w.done lib policy entries sourceMount).hides info'.mode = false :=
      hstorable.shown _ _ _ hin
    rw [hshown] at hcontent
    rw [hfinal, ← hrel]
    exact hcontent

end

end Done

/-! ### Two machines -/

def samplePolicy : BackupPolicy := ⟨builtinExcludedNames⟩

def sampleMount (deviceId : String) (mountPoint : Path) : MountInfo where
  deviceId := deviceId
  mountPoint := mountPoint
  filesystemType := "ext4"
  source := "/dev/sda1"
  options := ["rw"]

/-- A machine with one file in its source. -/
def sampleWorld (name : String) : World where
  toMedium := .plain 1000000000
  clock n := n
  readings := 0
  ids _ := Storage.sampleSha 'a' '0'
  drawn := 0
  sourceRoot := ["src"]
  source := .directory ⟨0o755, 0, "8:1", 2, false⟩ [(name, .file ⟨0o644, 0, "8:1", 3, false⟩ [104, 105])]
  destinationRoot := ["dst"]
  disk := []
  mounts := [sampleMount "8:1" ["src"], sampleMount "8:17" ["dst"]]
  physicalDeviceId _ := none
  removable _ := false
  available := 1000000000
  blocks _ content := [content]

def sampleEntries (name : String) : Entries :=
  [(name, .file ⟨0o644, 0, "8:1", 3, false⟩ [104, 105])]

/-- SHA-256 and JSON on these machines. -/
def sampleLibrary (name : String) : Library where
  planSha256 _ := Storage.sampleSha 'd' '0'
  manifestSha256 _ := Storage.sampleSha 'e' '0'
  contentSha256 _ := Storage.sampleSha 'c' '0'
  token text := text
  dumpsManifest _ := [123, 125]
  loadsManifest _ := some {
    backupId := Storage.sampleSha 'a' '0'
    source := (sampleWorld name).backupSource samplePolicy (sampleEntries name)
      (sampleMount "8:1" ["src"])
    entries := [⟨name, 2, 0, 0o644, .file, some (Storage.sampleSha 'c' '0')⟩]
    fileCount := 1
    directoryCount := 0
    totalSizeBytes := 2
    createdAt := 3
    manifestChecksumSha256 := Storage.sampleSha 'e' '0' }

theorem sample_walk (policy : BackupPolicy) (name deviceId : String) :
    walkSource policy deviceId (sampleEntries name) =
      (sampleEntries name).map (visit policy deviceId []) := by
  simp [walkSource, walk, sampleEntries, directoriesIn, Tree.directories, visit]

theorem legal_sample : Legal (Storage.sampleSha 'a' '0') := ⟨by decide, by decide, by decide⟩

theorem sample_ready (policy : BackupPolicy) (name : String) (hlegal : Legal name) (hlow : 1 ≤ name.length)
    (hhigh : name.length ≤ 4096)
    (hsize : (scanEntries policy "8:1" (sampleEntries name)).bytesTotal ≤ 2) :
    Ready (sampleWorld name) policy ⟨0o755, 0, "8:1", 2, false⟩ (sampleEntries name)
      (sampleMount "8:1" ["src"]) (sampleMount "8:17" ["dst"]) where
  source := rfl
  nodup := by simp [sampleEntries]
  sound := by simp [sampleEntries, SoundIn, Tree.Sound, hlegal]
  short v hv := by
    have hname : Path.posix [name] = name := by simp [Path.posix, List.intercalate]
    rw [sample_walk] at hv
    obtain rfl : v = _ := List.mem_singleton.mp hv
    exact ⟨by simpa [visit, hname] using hlow, by simpa [visit, hname] using hhigh,
      (by decide : 0o644 ≤ 0o7777)⟩
  sourceLegal part hmem := by
    rw [List.mem_singleton.mp hmem]
    exact ⟨by decide, by decide, by decide⟩
  destinationLegal part hmem := by
    rw [List.mem_singleton.mp hmem]
    exact ⟨by decide, by decide, by decide⟩
  outside := (by decide : ¬(["src"] : Path) <+: ["dst"])
  apart := (by decide : ¬(["dst"] : Path) <+: ["src"])
  empty := rfl
  sourceMounted := rfl
  destinationMounted := rfl
  otherFilesystem := by decide
  otherDevice := .inl rfl
  writable := rfl
  compatible := by decide
  space := by
    have hsmall : (scanEntries policy (sampleMount "8:1" ["src"]).deviceId
      (sampleEntries name)).bytesTotal ≤ 2 := hsize
    have havailable : (sampleWorld name).available = 1000000000 := rfl
    rw [havailable, minHeadroomBytes]
    omega
  ids _ := legal_sample
  usable := by
    refine ⟨fun rel hrel => rfl, fun rel hrel => rfl, (by decide : ".partial-" ++
      Storage.sampleSha 'a' '0' ≠ Storage.sampleSha 'a' '0'), rfl, fun name hlegal => ⟨hlegal, rfl⟩,
      rfl, rfl, rfl, (by decide : maxManifestBytes ≤ 1000000000)⟩

theorem sample_documented (policy : BackupPolicy) (name : String) :
    (sampleWorld name).Documented policy (sampleEntries name)
      (sampleMount "8:1" ["src"]) (sampleMount "8:17" ["dst"]) := by
  constructor
  · show (within 1 4096 (Path.str ["src"]) && within 3 64 "8:1" && true &&
      within 1 4096 (Path.str ["src"]) && within 1 64 "ext4") = true
    decide
  · show (within 1 4096 (Path.str ["dst"]) &&
      within 1 4096 (Path.str ["dst", "ARES", Storage.sampleSha 'a' '0']) && within 3 64 "8:17" &&
      true && within 1 4096 (Path.str ["dst"]) && within 1 64 "ext4") = true
    decide

theorem names_src : Names "/src" ["src"] :=
  ⟨by decide, by decide, by decide, by simpa using ⟨by decide, by decide, by decide⟩⟩

theorem names_dst : Names "/dst" ["dst"] :=
  ⟨by decide, by decide, by decide, by simpa using ⟨by decide, by decide, by decide⟩⟩

theorem sample_includes {policy : BackupPolicy} {name : String} {rel : Path} {node : Tree}
    (h : Includes policy "8:1" (sampleEntries name) rel node) :
    rel = [name] ∧ node = .file ⟨0o644, 0, "8:1", 3, false⟩ [104, 105] := by
  obtain ⟨base, last, rfl, hreach, -⟩ := h
  cases hreach with
  | here hmem =>
    obtain ⟨rfl, rfl⟩ := Prod.mk.inj (List.mem_singleton.mp hmem)
    exact ⟨rfl, rfl⟩
  | inside hmem => simp [sampleEntries] at hmem

theorem sample_storable (policy : BackupPolicy) :
    Storable (sampleLibrary "notes.txt") (sampleWorld "notes.txt") policy
      (sampleEntries "notes.txt") (sampleMount "8:1" ["src"]) where
  free := by simp [sampleEntries, manifestName, sampleWorld, Medium.plain]
  times rel node h := by rw [(sample_includes h).2]; decide
  small := (by decide : 3 ≤ maxManifestBytes)
  takes _ _ _ := rfl
  apart rel node rel' node' h h' _ := (sample_includes h).1.trans (sample_includes h').1.symm
  unlocked rel info inner name node h _ := by cases (sample_includes h).2
  allowed rel info inner h := by cases (sample_includes h).2
  fits rel info content h := by
    cases (sample_includes h).2
    decide
  settles _ _ _ _ := rfl
  shown _ _ _ _ := rfl
  sized rel info content h := by
    cases (sample_includes h).2
    decide
  listed rel node h := by
    rw [(sample_includes h).1]
    rfl

end Ares.Backups
