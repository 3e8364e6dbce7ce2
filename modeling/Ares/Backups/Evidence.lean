import Ares.Backups.Copying

/-! What the manifest of a backup says of its source, whatever is on the disk of the destination. -/

namespace Ares.Backups

open Coop Data

theorem Unchanged.sourceFile {w u : World} (h : Unchanged w u) : u.sourceFile = w.sourceFile := by
  obtain ⟨readings, drawn, disk, rfl⟩ := h
  rfl

theorem Unchanged.read {w u : World} (h : Unchanged w u) : u.read = w.read := by
  obtain ⟨readings, drawn, disk, rfl⟩ := h
  rfl

theorem Unchanged.mounts {w u : World} (h : Unchanged w u) : u.mounts = w.mounts := by
  obtain ⟨readings, drawn, disk, rfl⟩ := h
  rfl

/-! ### Copying -/

section Copied

variable {lib : Library} {w w' : World}

theorem lstat_source {path : Path} {info : Stat} {w : World} (hon : w.onDisk path = none)
    (h : (w.answer (.lstat path)).1 = .ok info) :
    ∃ node, w.sourceFile path = some node ∧ info = node.stat := by
  simp only [World.answer, World.lstat, hon] at h
  cases hfile : w.sourceFile path with
  | none => simp [hfile, World.orOs] at h
  | some node =>
    simp only [hfile, Option.map_some, World.orOs, Except.ok.injEq] at h
    exact ⟨node, rfl, h.symm⟩

theorem copyEntry_ok {root item relative : Path} {entry : BackupEntry} {n : Nat}
    (hon : w.onDisk item = none)
    (h : (copyEntry lib root item relative).serve World.server w = (.ok (entry, n), w')) :
    ∃ node, w.sourceFile item = some node ∧
      entry = manifestEntry lib w.read ⟨relative, node, none⟩ := by
  simp only [copyEntry, bind_eq] at h
  obtain ⟨-, h⟩ := require_bind_ok h
  obtain ⟨info, hstat, h⟩ := attempt_bind_ok h
  have hw : (w.answer (.lstat item)).2 = w := rfl
  rw [hw] at h
  obtain ⟨node, hfile, rfl⟩ := lstat_source hon hstat
  refine ⟨node, hfile, ?_⟩
  cases node with
  | directory info inner =>
    obtain ⟨-, -, h⟩ := attempt_bind_ok h
    obtain ⟨made, hmade, h⟩ := ofExcept_bind_ok h
    obtain ⟨-, -, h⟩ := attempt_bind_ok h
    obtain ⟨-, -, h⟩ := attempt_bind_ok h
    have hentry := (Prod.mk.inj (Except.ok.inj (congrArg Prod.fst h))).1
    rw [← hentry]
    exact entryFor_eq_ok lib (v := ⟨relative, .directory info inner, none⟩) hmade
  | file info content =>
    obtain ⟨-, -, h⟩ := attempt_bind_ok h
    obtain ⟨⟨checksum, copied⟩, t, hcopy, h⟩ := serve_bind_eq_ok h
    obtain ⟨made, hmade, h⟩ := ofExcept_bind_ok h
    obtain ⟨-, -, h⟩ := attempt_bind_ok h
    obtain ⟨-, -, h⟩ := attempt_bind_ok h
    have hentry := (Prod.mk.inj (Except.ok.inj (congrArg Prod.fst h))).1
    rw [← hentry]
    have hsame := unchanged_answer w (.mkdir (root ++ relative).dropLast 0o700 true true)
    obtain ⟨hr, -⟩ := copyRegularFile_ok lib (hsame.sourceFile ▸ hfile) hcopy
    rw [hsame.read] at hr
    rw [(Prod.mk.inj hr).1] at hmade
    exact entryFor_eq_ok lib (v := ⟨relative, .file info content, none⟩) hmade
  | symlink info => cases h
  | special info => cases h

theorem copyEntries_ok {root : Path} {items : List (Path × Path)} {entries : List BackupEntry}
    {n : Nat} (hon : ∀ item ∈ items, ∃ node, w.sourceFile item.1 = some node)
    (h : (copyEntries lib root items).serve World.server w = (.ok (entries, n), w')) :
    List.Forall₂ (fun item entry => ∃ node, w.sourceFile item.1 = some node ∧
      entry = manifestEntry lib w.read ⟨item.2, node, none⟩) items entries := by
  induction items generalizing w w' entries n with
  | nil =>
    obtain ⟨rfl, -⟩ := Prod.mk.inj (Except.ok.inj (congrArg Prod.fst h))
    exact .nil
  | cons item items ih =>
    rw [List.forall_mem_cons] at hon
    simp only [copyEntries, bind_eq] at h
    obtain ⟨⟨entry, copied⟩, t, hentry, h⟩ := serve_bind_eq_ok h
    obtain ⟨⟨rest, copied'⟩, t', hrest, h⟩ := serve_bind_eq_ok h
    obtain ⟨rfl, -⟩ := Prod.mk.inj (Except.ok.inj (congrArg Prod.fst h))
    have hsame := unchanged_of_quiet (quiet_copyEntry lib root item.1 item.2) hentry
    obtain ⟨node, hnode⟩ := hon.1
    have htail := ih (w := t) (fun item hitem => hsame.sourceFile ▸ hon.2 item hitem) hrest
    rw [hsame.sourceFile, hsame.read] at htail
    exact .cons (copyEntry_ok (onDisk_of_sourceFile hnode) hentry) htail

end Copied

/-! ### Creating -/

section Created

variable {lib : Library} {w w' : World} {plan : BackupPlan} {manifest : BackupManifest}

theorem serve_mountFor (w : World) (path : Path) :
    (mountFor path).serve World.server w = (.ok (innermost path w.mounts), w) := by
  have hob : ((attempt .mounts).observe : Tool World _).serve World.server w =
      (.ok (.ok w.mounts), w) := by
    rw [serve_observe, runs_attempt]
    rfl
  rw [mountFor, bind_eq, serve_bind_ok hob]
  rfl

theorem sourceFile_root (w : World) : w.sourceFile w.sourceRoot = some w.source := by
  have hb := below_append w.sourceRoot []
  rw [List.append_nil] at hb
  rw [World.sourceFile, hb]
  rfl

theorem sourceAt_directory {info : FileInfo} {entries : Entries} {rel : Path}
    (hsource : w.source = .directory info entries) (hne : rel ≠ []) :
    w.sourceAt rel = find? entries rel := by
  cases rel with
  | nil => exact absurd rfl hne
  | cons part rest =>
    rw [World.sourceAt, hsource]
    simp

theorem canonicalExisting_ok {raw code : String} {root : Path}
    (h : (canonicalExisting raw code).serve World.server w = (.ok root, w')) :
    root = components raw ∧ w' = w := by
  simp only [canonicalExisting, bind_eq] at h
  obtain ⟨-, h⟩ := require_bind_ok h
  obtain ⟨-, h⟩ := require_bind_ok h
  have hcall := osAs_ok h
  rw [runs_attempt, World.answer] at hcall
  split at hcall
  · obtain ⟨hroot, rfl⟩ := Prod.mk.inj hcall
    exact ⟨(Except.ok.inj hroot).symm, rfl⟩
  · cases hcall

theorem revalidatePlan_ok {now : DateTime}
    (h : (revalidatePlan lib plan).serve World.server w = (.ok now, w')) :
    (innermost (components plan.source.path) w.mounts).map (·.deviceId) =
      some plan.source.deviceId := by
  simp only [revalidatePlan, bind_eq] at h
  obtain ⟨time, -, h⟩ := attempt_bind_ok h
  obtain ⟨-, h⟩ := require_bind_ok h
  obtain ⟨source, t, hsource, h⟩ := serve_bind_eq_ok h
  obtain ⟨rfl, rfl⟩ := canonicalExisting_ok hsource
  obtain ⟨destination, t, hdestination, h⟩ := serve_bind_eq_ok h
  obtain ⟨rfl, rfl⟩ := canonicalExisting_ok hdestination
  rw [serve_bind_ok (serve_mountFor _ _), serve_bind_ok (serve_mountFor _ _)] at h
  obtain ⟨info, hinfo, h⟩ := ofOption_bind_ok h
  obtain ⟨hdevice, -⟩ := require_bind_ok h
  have hmounts : innermost (components plan.source.path) w.mounts = some info := hinfo
  rw [hmounts, Option.map_some, of_decide_eq_true hdevice]

/-- What the manifest says. -/
structure Evidence (lib : Library) (w : World) (plan : BackupPlan) (manifest : BackupManifest) :
    Prop where
  backupId : manifest.backupId = plan.backupId
  source : manifest.source = plan.source
  entries : ∃ items, w.walkCopy (components plan.source.path) plan.source.deviceId plan.policy =
      (items, none) ∧
    List.Forall₂ (fun item entry => ∃ node, w.sourceFile item.1 = some node ∧
      entry = manifestEntry lib w.read ⟨item.2, node, none⟩) items manifest.entries

theorem fillPartial_ok {aresRoot final partialRoot : Path} {manifest : BackupManifest}
    (hdevice : (innermost (components plan.source.path) w.mounts).map (·.deviceId) =
      some plan.source.deviceId)
    (hitems : ∀ item ∈ (w.walkCopy (components plan.source.path) plan.source.deviceId
      plan.policy).1, ∃ node, w.sourceFile item.1 = some node)
    (h : (fillPartial lib plan (components plan.source.path) aresRoot final partialRoot).serve
      World.server w = (.ok manifest, w')) : Evidence lib w plan manifest := by
  simp only [fillPartial, bind_eq] at h
  rw [serve_bind_ok (serve_mountFor _ _)] at h
  obtain ⟨info, hinfo, h⟩ := ofOption_bind_ok h
  rw [hinfo, Option.map_some, Option.some.injEq] at hdevice
  rw [hdevice] at h
  obtain ⟨⟨items, failure⟩, hwalk, h⟩ := attempt_bind_ok h
  have hwalk' : w.walkCopy (components plan.source.path) plan.source.deviceId plan.policy =
      (items, failure) := Except.ok.inj hwalk
  rw [hwalk'] at hitems
  obtain ⟨⟨entries, copied⟩, t, hcopy, h⟩ := serve_bind_eq_ok h
  have hentries := copyEntries_ok hitems hcopy
  obtain ⟨a, t', hraise, h⟩ := serve_bind_eq_ok h
  have hnone : failure = none := by
    cases failure with
    | none => rfl
    | some e => cases hraise
  obtain ⟨-, h⟩ := require_bind_ok h
  obtain ⟨createdAt, -, h⟩ := attempt_bind_ok h
  obtain ⟨-, t'', -, h⟩ := serve_bind_eq_ok h
  obtain ⟨-, -, h⟩ := attempt_bind_ok h
  obtain ⟨-, -, h⟩ := attempt_bind_ok h
  obtain ⟨-, -, h⟩ := attempt_bind_ok h
  obtain rfl := Except.ok.inj (congrArg Prod.fst h)
  exact ⟨rfl, rfl, items, hnone ▸ hwalk', hentries⟩

theorem walkCopy_items {policy : BackupPolicy} {deviceId : String} (hsound : w.source.Sound) :
    ∀ item ∈ (w.walkCopy w.sourceRoot deviceId policy).1,
      ∃ node, w.sourceFile item.1 = some node := by
  have hroot : w.sourceFile w.sourceRoot = some w.source := sourceFile_root w
  intro item hitem
  rw [World.walkCopy, hroot] at hitem
  cases hsource : w.source with
  | directory info entries =>
    rw [hsource] at hitem hsound
    obtain ⟨v, hv, rfl⟩ := List.mem_map.mp hitem
    refine ⟨v.node, ?_⟩
    have hfind := find_included hsound.1 hsound.2 hv
    rw [World.sourceFile, below_append, Option.bind_some]
    cases hrel : v.relative with
    | nil =>
      rw [hrel] at hfind
      cases hfind
    | cons part rest =>
      rw [World.sourceAt, hsource, ← hrel]
      · exact hfind
      · simp
  | file info content =>
    rw [hsource] at hitem
    rw [List.mem_singleton.mp hitem]
    exact ⟨_, hroot⟩
  | symlink info =>
    rw [hsource] at hitem
    cases hitem
  | special info =>
    rw [hsource] at hitem
    cases hitem

theorem handle_ok {α : Type} {p : Tool World α} {handler : Error → Tool World α} {a : α}
    (hraises : ∀ e u b u', (handler e).serve World.server u ≠ (.ok b, u'))
    (h : (p.handle handler).serve World.server w = (.ok a, w')) :
    p.serve World.server w = (.ok a, w') := by
  rw [serve_handle] at h
  cases hp : p.serve World.server w with
  | mk r t =>
    rw [hp] at h
    cases r with
    | ok a' => exact h
    | error e => exact absurd h (hraises e t a w')

theorem createBackup_ok {manifest : BackupManifest} (hsound : w.source.Sound)
    (hroot : components plan.source.path = w.sourceRoot)
    (h : w.runs (createBackup lib plan) = (.ok manifest, w')) : Evidence lib w plan manifest := by
  rw [World.runs, createBackup, bind_eq] at h
  obtain ⟨now, t, hvalid, h⟩ := serve_bind_eq_ok h
  have hdevice := revalidatePlan_ok hvalid
  have hsame := unchanged_of_quiet (quiet_revalidatePlan lib plan) hvalid
  simp only [copyBackup, bind_eq] at h
  obtain ⟨_, u, hprepare, h⟩ := serve_bind_eq_ok h
  have hsame' : Unchanged w u :=
    hsame.trans (unchanged_of_quiet (quiet_prepareBackupDestination _ _ _) hprepare)
  have hfill := handle_ok (fun e t b t' heq => by
    cases e with
    | tool | permission | os | cancelled =>
      obtain ⟨_, _, -, hraise⟩ := serve_bind_eq_ok heq
      cases hraise
    | audit | value | other => cases heq) h
  have hfile := hsame'.sourceFile
  have hwalk : u.walkCopy = w.walkCopy := by
    funext root deviceId policy
    rw [World.walkCopy, World.walkCopy, hfile]
  have hevidence := fillPartial_ok (by rw [hsame'.mounts]; exact hdevice) ?_ hfill
  · obtain ⟨hid, hsource, hentries⟩ := hevidence
    rw [hwalk, hfile, hsame'.read] at hentries
    exact ⟨hid, hsource, hentries⟩
  · rw [hwalk, hfile, hroot]
    exact walkCopy_items hsound

/-! ### What a manifest lists -/

theorem eq_map_of_forall₂ {α β : Type} {R : α → β → Prop} {f : α → β} {xs : List α} {ys : List β}
    (h : List.Forall₂ R xs ys) (hf : ∀ x ∈ xs, ∀ y, R x y → y = f x) : ys = xs.map f := by
  induction h with
  | nil => rfl
  | @cons x y xs ys hxy _ ih =>
    rw [List.forall_mem_cons] at hf
    rw [List.map_cons, hf.1 y hxy, ih hf.2]

section

variable (hev : Evidence lib w plan manifest) (hroot : components plan.source.path = w.sourceRoot)
  (hsound : w.source.Sound)
include hev hroot hsound

theorem Evidence.directory {info : FileInfo} {entries : Entries}
    (hsource : w.source = .directory info entries) :
    manifest.entries =
      (included plan.policy plan.source.deviceId entries).map (manifestEntry lib w.read) := by
  obtain ⟨items, hwalk, hall⟩ := hev.entries
  rw [hroot, World.walkCopy, sourceFile_root, hsource] at hwalk
  obtain ⟨rfl, -⟩ := Prod.mk.inj hwalk
  rw [List.forall₂_map_left_iff] at hall
  refine eq_map_of_forall₂ hall fun v hv entry hentry => ?_
  obtain ⟨node, hnode, rfl⟩ := hentry
  rw [hsource] at hsound
  have hfind := find_included hsound.1 hsound.2 hv
  have hne := (included_legal hsound.2 hv).1
  rw [World.sourceFile, below_append, Option.bind_some, sourceAt_directory hsource hne, hfind,
    Option.some.injEq] at hnode
  rw [← hnode]
  rfl

omit hsound in
theorem Evidence.file {info : FileInfo} {content : List UInt8}
    (hsource : w.source = .file info content) :
    manifest.entries =
      [manifestEntry lib w.read ⟨w.sourceRoot.getLast?.toList, .file info content, none⟩] := by
  obtain ⟨items, hwalk, hall⟩ := hev.entries
  rw [hroot, World.walkCopy, sourceFile_root, hsource] at hwalk
  obtain ⟨rfl, -⟩ := Prod.mk.inj hwalk
  obtain ⟨entry, rest, ⟨node, hnode, rfl⟩, hrest, heq⟩ := List.forall₂_cons_left_iff.mp hall
  rw [sourceFile_root, hsource, Option.some.injEq] at hnode
  rw [heq, ← hnode, List.forall₂_nil_left_iff.mp hrest]

end

end Created

end Ares.Backups
