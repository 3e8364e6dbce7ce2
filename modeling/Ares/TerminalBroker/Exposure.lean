import Ares.Data.PurePath
import Ares.TerminalBroker.Rollback

/-! Which directory a terminal shows.  A plan gives two paths, the mount point of its details and the
technical path; `_validate_plan` looks at the first of them that is given, `_prepare_read_only_source`
takes the first that is a directory, and both compare texts with `/`. -/

namespace Ares.TerminalBroker

open Coop Data

/-- What the terminal shows is what was validated, and it is not the root of the running system. -/
structure HidesRoot (cwd : Path) (target : TerminalTarget) (technicalPath : String)
    (source : String × Bool) : Prop where
  /-- Where the broker has mounted a device, the terminal shows that device. -/
  examined : (if source.2 then pathText technicalPath else source.1) = target.source technicalPath
  below : fullPath cwd source.1 ≠ []

def namesMountpoint (target : TerminalTarget) : Bool :=
  target.mountpoint ≠ "" && target.mountpoint ≠ "/"

/-- The mount point of the details is a directory when the source is prepared. -/
def picksMountpoint (out : Outside) (m : Machine) (target : TerminalTarget) : Bool :=
  namesMountpoint target && exactly true (out.answer m (.isDir (pathText target.mountpoint)))

def askedNext (out : Outside) (m : Machine) (target : TerminalTarget) : Machine :=
  if namesMountpoint target then m.after out (.isDir (pathText target.mountpoint)) else m

/-- The technical path is a directory or not, when the source is prepared. -/
def technicalIs (out : Outside) (m : Machine) (target : TerminalTarget) (technicalPath : String)
    (b : Bool) : Prop :=
  exactly b (out.answer (askedNext out m target) (.isDir (pathText technicalPath))) = true

/-- The components of the directory that is taken lead below the root. -/
def LeadsBelow (cwd : Path) (out : Outside) (m : Machine) (target : TerminalTarget)
    (technicalPath : String) : Prop :=
  if picksMountpoint out m target then 0 < level (fullParts cwd target.mountpoint)
  else technicalIs out m target technicalPath true → 0 < level (fullParts cwd technicalPath)

variable {cfg : Config} {out : Outside} {task : Nat} {plan : TerminalPlan} {target : TerminalTarget}
  {technicalPath : String} {sessionDir : Path} {s t : State} {source : String × Bool}

theorem exactly_not {α : Type} [DecidableEq α] {a b : α} {r : Except Error α} (hne : a ≠ b)
    (h : exactly a r = true) : exactly b r = false := by
  cases r with
  | error e => rfl
  | ok v =>
    obtain rfl : v = a := of_decide_eq_true h
    exact decide_eq_false hne

theorem mem_technicalCalls {path : String} {r : List (Ask Res) × (String × Bool)} {m : Machine}
    (h : r ∈ technicalCalls path sessionDir) (hf : Follows out.machine r.1 m) :
    exactly true (out.answer m (.isDir path)) = true ∧ r.2 = (path, false) ∨
      exactly false (out.answer m (.isDir path)) = true ∧
        r.2 = ((sessionDir ++ ["root"]).str, true) := by
  rcases List.mem_append.mp h with h | h
  · split at h
    · obtain rfl := List.mem_singleton.mp h
      exact .inl ⟨hf.1, rfl⟩
    · cases h
  · split at h
    · obtain rfl := List.mem_singleton.mp h
      exact .inr ⟨hf.1, rfl⟩
    · cases h

/-- Where the source comes from. -/
theorem source_cases (htarget : plan.target = some target)
    (hpath : target.technicalPath = some technicalPath)
    (h : (prepareReadOnlySource task plan sessionDir).serve out.server s = (.ok source, t)) :
    picksMountpoint out s.machine target = true ∧ source = (pathText target.mountpoint, false) ∨
      picksMountpoint out s.machine target = false ∧
        (technicalIs out s.machine target technicalPath true ∧
            source = (pathText technicalPath, false) ∨
          technicalIs out s.machine target technicalPath false ∧
            source = ((sessionDir ++ ["root"]).str, true)) := by
  have hrouted : Routed out (prepareReadOnlySource task plan sessionDir) (routes plan sessionDir) :=
    routed_prepareReadOnlySource sessionDir
  obtain ⟨r, hr, hf⟩ : ∃ r ∈ routes plan sessionDir, Follows out.machine r.1 s.machine := by
    by_contra hnone
    obtain ⟨e, t', l', hserve, -⟩ := hrouted.stops s fun r hr hf => hnone ⟨r, hr, hf⟩
    rw [h] at hserve
    cases hserve
  obtain ⟨a, t', hserve, rfl, -⟩ := hrouted.ends s r hr hf
  obtain rfl : source = r.2 := by
    rw [h] at hserve
    exact Except.ok.inj (Prod.mk.inj hserve).1
  simp only [routes, htarget, hpath, sourceCalls] at hr
  split at hr
  · next hnames =>
    have hnamed : namesMountpoint target = true := hnames
    rcases List.mem_cons.mp hr with rfl | hr
    · have hfound : exactly true
          (out.answer s.machine (.isDir (pathText target.mountpoint))) = true := hf.1
      exact .inl ⟨by simp [picksMountpoint, hnamed, hfound], rfl⟩
    · obtain ⟨r', hr', rfl⟩ := List.mem_map.mp hr
      have hnext : askedNext out s.machine target =
          s.machine.after out (.isDir (pathText target.mountpoint)) := by
        simp [askedNext, hnamed]
      have hnot : exactly true (out.answer s.machine (.isDir (pathText target.mountpoint))) = false :=
        exactly_not (by decide) hf.1
      refine .inr ⟨by simp [picksMountpoint, hnot], ?_⟩
      rw [technicalIs, technicalIs, hnext]
      exact mem_technicalCalls (r := r') hr' hf.2
  · next hnames =>
    have hnamed : namesMountpoint target = false := Bool.eq_false_iff.mpr hnames
    have hnext : askedNext out s.machine target = s.machine := by simp [askedNext, hnamed]
    refine .inr ⟨by simp [picksMountpoint, hnamed], ?_⟩
    rw [technicalIs, technicalIs, hnext]
    exact mem_technicalCalls hr hf

theorem accepted_of_validated (h : (validatePlan cfg task plan).serve out.server s = (.ok (), t)) :
    PlanAccepted cfg plan := by
  by_contra hnot
  obtain ⟨e, t', l', hserve, -⟩ := scripted_validatePlan.stops s fun hboth => hnot hboth.1
  rw [h] at hserve
  cases hserve

theorem fullPath_root (cwd sessionDir : Path) : fullPath cwd (sessionDir ++ ["root"]).str ≠ [] := by
  have habsolute : isAbsolute (sessionDir ++ ["root"]).str = true := by
    simp [isAbsolute, Path.str, String.toList_append]
  rw [fullPath, fullParts, habsolute, if_pos rfl, components_str_concat (by decide),
    normalParts_ne_nil_iff, level_append_name (by decide)]
  exact Nat.succ_pos _

/-- A source that was prepared is the one that the checks look at, and not the root, exactly when the
mount point of the details is missing, is a directory or is the technical path, and the components of
the directory that is taken lead below the root. -/
theorem hidesRoot_iff (cwd : Path) (htarget : plan.target = some target)
    (hpath : target.technicalPath = some technicalPath)
    (h : (prepareReadOnlySource task plan sessionDir).serve out.server s = (.ok source, t)) :
    HidesRoot cwd target technicalPath source ↔
      (target.mountpoint = "" ∨ picksMountpoint out s.machine target = true ∨
        pathText target.mountpoint = pathText technicalPath) ∧
      LeadsBelow cwd out s.machine target technicalPath := by
  have hsource : target.source technicalPath =
      pathText (if target.mountpoint = "" then technicalPath else target.mountpoint) := by
    unfold TerminalTarget.source
    rfl
  have hbelow : ∀ text, fullPath cwd (pathText text) ≠ [] ↔ 0 < level (fullParts cwd text) := by
    intro text
    rw [fullPath_pathText, fullPath, normalParts_ne_nil_iff]
  have hshown (hpicks : picksMountpoint out s.machine target = false) :
      pathText technicalPath = target.source technicalPath ↔
        (target.mountpoint = "" ∨ picksMountpoint out s.machine target = true ∨
          pathText target.mountpoint = pathText technicalPath) := by
    by_cases hempty : target.mountpoint = "" <;> simp [hsource, hempty, hpicks, eq_comm]
  rcases source_cases htarget hpath h with
    ⟨hpicks, rfl⟩ | ⟨hpicks, ⟨htechnical, rfl⟩ | ⟨htechnical, rfl⟩⟩
  · have hmountpoint : target.mountpoint ≠ "" := by
      rintro hempty
      simp [picksMountpoint, namesMountpoint, hempty] at hpicks
    rw [LeadsBelow, if_pos hpicks, ← hbelow]
    exact ⟨fun h => ⟨.inr (.inl hpicks), h.below⟩,
      fun h => ⟨by simp [hsource, hmountpoint], h.2⟩⟩
  · rw [LeadsBelow, if_neg (Bool.eq_false_iff.mp hpicks), ← hbelow, ← hshown hpicks]
    exact ⟨fun h => ⟨h.examined, fun _ => h.below⟩, fun h => ⟨h.1, h.2 htechnical⟩⟩
  · have hnot : ¬technicalIs out s.machine target technicalPath true :=
      Bool.eq_false_iff.mp (exactly_not (by decide) htechnical)
    rw [LeadsBelow, if_neg (Bool.eq_false_iff.mp hpicks), ← hshown hpicks]
    exact ⟨fun h => ⟨h.examined, fun h' => absurd h' hnot⟩,
      fun h => ⟨h.1, fullPath_root cwd sessionDir⟩⟩

/-- For every plan that `_validate_plan` accepts and every source that is prepared for it then, the
terminal shows what was validated and not the root exactly when the mount point of the details is
missing, is a directory or is the technical path, and the components of the directory that is taken
lead below the root. -/
theorem root_hidden_iff (cfg : Config) (task task' : Nat) (cwd : Path) (out out' : Outside)
    (s s' t t' : State) (plan : TerminalPlan) (sessionDir : Path) (source : String × Bool)
    (hvalidate : (validatePlan cfg task plan).serve out.server s = (.ok (), t))
    (hprepare : (prepareReadOnlySource task' plan sessionDir).serve out'.server s' =
      (.ok source, t')) :
    ∃ target technicalPath, plan.target = some target ∧ target.technicalPath = some technicalPath ∧
      (HidesRoot cwd target technicalPath source ↔
        (target.mountpoint = "" ∨ picksMountpoint out' s'.machine target = true ∨
          pathText target.mountpoint = pathText technicalPath) ∧
        LeadsBelow cwd out' s'.machine target technicalPath) := by
  obtain ⟨target, technicalPath, htarget, hpath, -⟩ := (accepted_of_validated hvalidate).target
  have hpath' : target.technicalPath = some technicalPath := (Option.filter_eq_some_iff.mp hpath).1
  exact ⟨target, technicalPath, htarget, hpath', hidesRoot_iff cwd htarget hpath' hprepare⟩

/-! ### Two slashes -/

def planOf (technicalPath : String) : TerminalPlan :=
  { samplePlan with target := some { sampleTarget with technicalPath := some technicalPath } }

def openMachine : Outside where
  answer _ o := match o with
    | .isDir _ => .ok true
    | o => sampleAnswer o
  leaves _ _ := false

def plainState : State := .start 0 emptyMachine

/-- The plan for `technicalPath` is accepted, and its source is taken as it is. -/
def Taken (technicalPath : String) : Prop :=
  ∃ t t', (validatePlan sampleConfig 0 (planOf technicalPath)).serve openMachine.server plainState =
      (.ok (), t) ∧
    (prepareReadOnlySource 0 (planOf technicalPath) ["run", "session1"]).serve openMachine.server
      plainState = (.ok (pathText technicalPath, false), t')

theorem taken_of_results {technicalPath : String}
    (hvalidate : ((validatePlan sampleConfig 0 (planOf technicalPath)).serve openMachine.server
      plainState).1 = .ok ())
    (hprepare : ((prepareReadOnlySource 0 (planOf technicalPath) ["run", "session1"]).serve
      openMachine.server plainState).1 = .ok (pathText technicalPath, false)) :
    Taken technicalPath :=
  ⟨_, _, Prod.ext hvalidate rfl, Prod.ext hprepare rfl⟩

theorem taken_system : Taken "/mnt/system" :=
  taken_of_results (by decide +kernel) (by decide +kernel)

theorem taken_slashes : Taken "//" := taken_of_results (by decide +kernel) (by decide +kernel)

theorem root_hidden_sample : ∃ target technicalPath, (planOf "/mnt/system").target = some target ∧
      target.technicalPath = some technicalPath ∧
      (HidesRoot [] target technicalPath (pathText "/mnt/system", false) ↔
        (target.mountpoint = "" ∨ picksMountpoint openMachine plainState.machine target = true ∨
          pathText target.mountpoint = pathText technicalPath) ∧
        LeadsBelow [] openMachine plainState.machine target technicalPath) :=
  let ⟨_, _, hvalidate, hprepare⟩ := taken_system
  root_hidden_iff sampleConfig 0 0 [] openMachine openMachine plainState plainState _ _
    (planOf "/mnt/system") ["run", "session1"] (pathText "/mnt/system", false) hvalidate hprepare

/-- A plan for `//` is accepted, and the terminal shows the root. -/
theorem two_slashes_show_root :
    ¬∀ (cfg : Config) (task task' : Nat) (cwd : Path) (out out' : Outside) (s s' t t' : State)
      (plan : TerminalPlan) (target : TerminalTarget) (technicalPath : String) (sessionDir : Path)
      (source : String × Bool), plan.target = some target →
      target.technicalPath = some technicalPath →
      (validatePlan cfg task plan).serve out.server s = (.ok (), t) →
      (prepareReadOnlySource task' plan sessionDir).serve out'.server s' = (.ok source, t') →
      HidesRoot cwd target technicalPath source := by
  intro claim
  obtain ⟨_, _, hvalidate, hprepare⟩ := taken_slashes
  have hhides := claim sampleConfig 0 0 [] openMachine openMachine plainState plainState _ _
    (planOf "//") _ _ ["run", "session1"] (pathText "//", false) rfl rfl hvalidate hprepare
  exact hhides.below (by decide +kernel)

end Ares.TerminalBroker
