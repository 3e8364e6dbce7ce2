import Ares.Diagnostics.Packages

/-! On a status file whose packages are all in a consistent state, the health check raises no false
alarm exactly when the packages are all installed and none is on hold. -/

namespace Ares.Diagnostics

open Data

/-! ### Consistent files -/

inductive Want
  | install | hold | deinstall | purge
deriving DecidableEq

inductive PackageState
  | installed | configFiles | notInstalled
deriving DecidableEq

def Want.text : Want → List Char
  | install => "install".toList
  | hold => "hold".toList
  | deinstall => "deinstall".toList
  | purge => "purge".toList

def PackageState.text : PackageState → List Char
  | installed => "installed".toList
  | configFiles => "config-files".toList
  | notInstalled => "not-installed".toList

/-- `<want> ok <state>`. -/
def consistentStatus (want : Want) (state : PackageState) : List Char :=
  want.text ++ " ok ".toList ++ state.text

def wants : List Want := [.install, .hold, .deinstall, .purge]

def states : List PackageState := [.installed, .configFiles, .notInstalled]

theorem mem_wants (want : Want) : want ∈ wants := by cases want <;> decide

theorem mem_states (state : PackageState) : state ∈ states := by cases state <;> decide

/-- The value of a line of the field `Status`. -/
def statusLine (line : List Char) : Option (List Char) :=
  match cut [':'] line with
  | none => none
  | some (key, value) => if key = statusKey then some (strip value) else none

def statusField (paragraph : List Char) : Option (List Char) :=
  ((splitlines paragraph).filterMap statusLine).getLast?

def Declares (paragraph : List Char) (want : Want) (state : PackageState) : Prop :=
  statusField paragraph = some (consistentStatus want state)

instance (paragraph : List Char) (want : Want) (state : PackageState) :
    Decidable (Declares paragraph want state) :=
  inferInstanceAs (Decidable (statusField paragraph = some (consistentStatus want state)))

def Blank (paragraph : List Char) : Prop := ∀ c ∈ paragraph, c = '\n'

/-- A file of one or more packages, each in a consistent state. -/
structure StatusFile (text : List Char) : Prop where
  consistent : ∀ paragraph ∈ paragraphs text,
    Blank paragraph ∨ ∃ want state, Declares paragraph want state
  nonempty : ∃ paragraph ∈ paragraphs text, ¬ Blank paragraph

def isInstalled (paragraph : List Char) : Bool :=
  wants.any fun want => Declares paragraph want .installed

def OnHold (paragraph : List Char) : Prop := ∃ state, Declares paragraph .hold state

/-- The lists of APT are not older than fourteen days. -/
def Fresh (files : DpkgFiles) : Prop := ∀ age ∈ aptMetadataAge files.lists files.now, age ≤ 14

/-- What the check says of a consistent file. -/
structure NoFalseAlarm (text : List Char) (fresh : Prop) (result : PackageHealthResult) : Prop where
  status : result.status ≠ .repairRequired
  inconsistent : result.inconsistentPackages = []
  installed : result.installedPackages = (paragraphs text).countP isInstalled
  warnings : fresh → (result.status = .warnings ↔ ∃ paragraph ∈ paragraphs text, OnHold paragraph)
  healthy : fresh → (result.status = .healthy ↔ ¬ ∃ paragraph ∈ paragraphs text, OnHold paragraph)

/-- Every package that is read is to be installed and is, and behind them none is installed or, with
fresh lists, on hold. -/
structure AllInstalled (text : List Char) (fresh : Prop) : Prop where
  read : ∀ paragraph ∈ (paragraphs text).take maxParagraphs, ∀ want state,
    Declares paragraph want state → want = .install ∧ state = .installed
  unread : ∀ paragraph ∈ (paragraphs text).drop maxParagraphs, ∀ want state,
    Declares paragraph want state → state ≠ .installed ∧ (fresh → want ≠ .hold)

/-! ### The status that is read -/

theorem packageFields_status (paragraph : List Char) :
    (packageFields paragraph).get? statusKey = statusField paragraph := by
  have hline : statusLine = fun line => (packageField line).bind fun field =>
      if field.1 = statusKey then some field.2 else none := by
    funext line
    unfold statusLine packageField
    cases cut [':'] line with
    | none => rfl
    | some sides =>
      obtain ⟨key, value⟩ := sides
      by_cases hkey : key = statusKey
      · simp [hkey]
      · by_cases hpackage : key = packageKey
        · simp only [hpackage] at hkey ⊢
          simp [hkey]
        · simp [hkey, hpackage]
  rw [packageFields, Dict.get?_foldl_set_eq, statusField, hline, ← List.filterMap_filterMap,
    List.getLast?_filterMap, Dict.get?_empty, Option.or_none]
  generalize ((splitlines paragraph).filterMap packageField).reverse = fields
  induction fields with
  | nil => rfl
  | cons field fields ih =>
    by_cases hkey : field.1 = statusKey
    · simp [hkey]
    · have hother : (statusKey == field.1) = false := by simpa using Ne.symm hkey
      rw [List.find?_cons, hother, ih]
      simp [hkey]

def stateOf (paragraph : List Char) : List Char := (statusField paragraph).getD []

variable {paragraph : List Char}

theorem stateOf_declares {want : Want} {state : PackageState}
    (h : Declares paragraph want state) : stateOf paragraph = consistentStatus want state := by
  rw [stateOf, h, Option.getD_some]

theorem splitlines_blank (h : Blank paragraph) :
    ∀ line ∈ splitlines paragraph, line = [] := by
  induction paragraph with
  | nil => simp [splitlines]
  | cons c rest ih =>
    obtain rfl := h c List.mem_cons_self
    rw [splitlines_cons fun _ _ => by decide]
    simpa [lineBreak] using ih fun d hd => h d (List.mem_cons_of_mem _ hd)

theorem statusField_blank (h : Blank paragraph) :
    statusField paragraph = none := by
  have hnone : (splitlines paragraph).filterMap statusLine = [] := by
    rw [List.filterMap_eq_nil_iff]
    intro line hline
    rw [splitlines_blank h line hline]
    rfl
  rw [statusField, hnone]
  rfl

theorem not_declares_blank (h : Blank paragraph) (want : Want)
    (state : PackageState) : ¬ Declares paragraph want state := by
  rw [Declares, statusField_blank h]
  exact nofun

theorem declares_unique {want want' : Want} {state state' : PackageState}
    (h : Declares paragraph want state) (h' : Declares paragraph want' state') :
    want = want' ∧ state = state' := by
  have hinj : ∀ want ∈ wants, ∀ state ∈ states, ∀ want' ∈ wants, ∀ state' ∈ states,
      consistentStatus want state = consistentStatus want' state' →
        want = want' ∧ state = state' := by decide +kernel
  exact hinj want (mem_wants want) state (mem_states state) want' (mem_wants want') state'
    (mem_states state') (Option.some.inj (h.symm.trans h'))

theorem isInstalled_declares {want : Want} {state : PackageState}
    (h : Declares paragraph want state) : isInstalled paragraph = true ↔ state = .installed := by
  rw [isInstalled, List.any_eq_true]
  constructor
  · rintro ⟨other, -, hother⟩
    exact (declares_unique h (of_decide_eq_true hother)).2
  · rintro rfl
    exact ⟨want, mem_wants want, decide_eq_true h⟩

theorem isInstalled_blank (h : Blank paragraph) :
    isInstalled paragraph = false := by
  rw [isInstalled, List.any_eq_false]
  intro want _ hdeclares
  exact not_declares_blank h want .installed (of_decide_eq_true hdeclares)

/-! ### The loop -/

def labelOf (lib : TextLibrary) (paragraph : List Char) : List Char :=
  safeLabel lib (((packageFields paragraph).get? packageKey).getD "unknown".toList) "package"

theorem foldl_addParagraph (lib : TextLibrary) (chunks : List (List Char)) (status : DpkgStatus) :
    chunks.foldl (addParagraph lib) status =
      { installed := status.installed + chunks.countP (stateOf · = installedStatus)
        inconsistent := status.inconsistent ++ (chunks.filter fun chunk =>
          stateOf chunk ≠ installedStatus && stateOf chunk ≠ []).map (labelOf lib)
        held := status.held ++ (chunks.filter fun chunk =>
          holdMark.isPrefixOf (stateOf chunk)).map (labelOf lib) } := by
  induction chunks generalizing status with
  | nil => simp
  | cons chunk chunks ih =>
    rw [List.foldl_cons, ih]
    have hstate : ((packageFields chunk).get? statusKey).getD [] = stateOf chunk :=
      congrArg (Option.getD · []) (packageFields_status chunk)
    simp only [addParagraph, hstate, List.countP_cons, List.filter_cons]
    rw [DpkgStatus.mk.injEq]
    refine ⟨?_, ?_, ?_⟩
    · by_cases hinstalled : stateOf chunk = installedStatus
      · simp only [hinstalled, if_true, decide_true]
        omega
      · simp only [hinstalled, if_false, decide_false, Bool.false_eq_true, Nat.add_zero]
    · by_cases hinstalled : stateOf chunk = installedStatus
      · simp [hinstalled]
      · by_cases hempty : stateOf chunk = []
        · simp [hempty]
        · simp [hinstalled, hempty, labelOf]
    · cases holdMark.isPrefixOf (stateOf chunk) with
      | false => simp
      | true => simp [labelOf]

theorem parseDpkgStatus_eq (lib : TextLibrary) (text : List Char) :
    parseDpkgStatus lib text =
      { installed := ((paragraphs text).take maxParagraphs).countP (stateOf · = installedStatus)
        inconsistent := (((paragraphs text).take maxParagraphs).filter fun chunk =>
          stateOf chunk ≠ installedStatus && stateOf chunk ≠ []).map (labelOf lib)
        held := (((paragraphs text).take maxParagraphs).filter fun chunk =>
          holdMark.isPrefixOf (stateOf chunk)).map (labelOf lib) } := by
  rw [parseDpkgStatus, foldl_addParagraph, Nat.zero_add, List.nil_append, List.nil_append]

/-! ### Consistent paragraphs -/

theorem consistentStatus_installed (want : Want) (state : PackageState) :
    consistentStatus want state = installedStatus ↔ want = .install ∧ state = .installed := by
  revert want state
  have hall : ∀ want ∈ wants, ∀ state ∈ states,
      (consistentStatus want state = installedStatus ↔ want = .install ∧ state = .installed) := by
    decide +kernel
  exact fun want state => hall want (mem_wants want) state (mem_states state)

theorem consistentStatus_ne_nil (want : Want) (state : PackageState) :
    consistentStatus want state ≠ [] := by
  have hall : ∀ want ∈ wants, ∀ state ∈ states, consistentStatus want state ≠ [] := by
    decide +kernel
  exact hall want (mem_wants want) state (mem_states state)

variable {lib : TextLibrary} {text : List Char} (h : StatusFile text)

include h

theorem StatusFile.inconsistent_iff : (parseDpkgStatus lib text).inconsistent = [] ↔
    ∀ paragraph ∈ (paragraphs text).take maxParagraphs, ∀ want state,
      Declares paragraph want state → want = .install ∧ state = .installed := by
  rw [parseDpkgStatus_eq, List.map_eq_nil_iff, List.filter_eq_nil_iff]
  refine forall₂_congr fun paragraph hparagraph => ?_
  rcases h.consistent paragraph (List.mem_of_mem_take hparagraph) with hblank | ⟨want, state, hdeclares⟩
  · have hempty : stateOf paragraph = [] := by rw [stateOf, statusField_blank hblank]; rfl
    simp [hempty, not_declares_blank hblank]
  · rw [stateOf_declares hdeclares]
    simp only [ne_eq, consistentStatus_ne_nil, not_false_eq_true, decide_true, Bool.and_true,
      decide_eq_true_eq, not_not, consistentStatus_installed]
    constructor
    · rintro hinstalled want' state' hdeclares'
      obtain ⟨rfl, rfl⟩ := declares_unique hdeclares hdeclares'
      exact hinstalled
    · exact fun hall => hall want state hdeclares

theorem StatusFile.ne_nil : text ≠ [] := by
  rintro rfl
  obtain ⟨paragraph, hparagraph, hblank⟩ := h.nonempty
  obtain rfl := List.mem_singleton.mp hparagraph
  exact hblank nofun

section Installed

variable (hread : ∀ paragraph ∈ (paragraphs text).take maxParagraphs, ∀ want state,
  Declares paragraph want state → want = .install ∧ state = .installed)

include hread

theorem StatusFile.installed_eq : (parseDpkgStatus lib text).installed =
    ((paragraphs text).take maxParagraphs).countP isInstalled := by
  rw [parseDpkgStatus_eq]
  refine List.countP_congr fun paragraph hparagraph => ?_
  rw [decide_eq_true_eq]
  rcases h.consistent paragraph (List.mem_of_mem_take hparagraph) with hblank | ⟨want, state, hdeclares⟩
  · have hempty : stateOf paragraph = [] := by rw [stateOf, statusField_blank hblank]; rfl
    rw [hempty, isInstalled_blank hblank]
    decide
  · obtain ⟨rfl, rfl⟩ := hread paragraph hparagraph want state hdeclares
    rw [stateOf_declares hdeclares, consistentStatus_installed, isInstalled_declares hdeclares]
    simp

theorem StatusFile.held_eq : (parseDpkgStatus lib text).held = [] := by
  rw [parseDpkgStatus_eq, List.map_eq_nil_iff, List.filter_eq_nil_iff]
  intro paragraph hparagraph
  rcases h.consistent paragraph (List.mem_of_mem_take hparagraph) with hblank | ⟨want, state, hdeclares⟩
  · have hempty : stateOf paragraph = [] := by rw [stateOf, statusField_blank hblank]; rfl
    rw [hempty]
    decide
  · obtain ⟨rfl, rfl⟩ := hread paragraph hparagraph want state hdeclares
    rw [stateOf_declares hdeclares]
    decide

omit h in
theorem onHold_iff : (∃ paragraph ∈ paragraphs text, OnHold paragraph) ↔
    ∃ paragraph ∈ (paragraphs text).drop maxParagraphs, OnHold paragraph := by
  constructor
  · rintro ⟨paragraph, hparagraph, state, hdeclares⟩
    rw [← List.take_append_drop maxParagraphs (paragraphs text), List.mem_append] at hparagraph
    rcases hparagraph with hparagraph | hparagraph
    · cases (hread paragraph hparagraph .hold state hdeclares).1
    · exact ⟨paragraph, hparagraph, state, hdeclares⟩
  · rintro ⟨paragraph, hparagraph, hhold⟩
    exact ⟨paragraph, List.mem_of_mem_drop hparagraph, hhold⟩

end Installed

omit h

/-! ### The verdict -/

theorem packagesSync_read (lib : TextLibrary) (target : Target) {files : DpkgFiles} {file : TextFile}
    (hfile : files.status = some file) (hregular : file.regular = true)
    (hsize : file.size ≤ maxSmallFile) (hne : file.text ≠ []) :
    (packagesSync lib target files).status = packageHealth (parseDpkgStatus lib file.text)
        (safeDirectoryCount files.updates) (aptMetadataAge files.lists files.now) ∧
      (packagesSync lib target files).inconsistentPackages =
        (parseDpkgStatus lib file.text).inconsistent.take 100 ∧
      (packagesSync lib target files).installedPackages =
        (parseDpkgStatus lib file.text).installed := by
  have hread : readBounded files.status maxSmallFile = file.text := by
    rw [hfile, readBounded, hregular, Bool.not_true, Bool.false_or,
      if_neg (by simpa using hsize)]
  rw [packagesSync, hread, if_neg hne]
  exact ⟨rfl, rfl, rfl⟩

theorem packageHealth_repair_iff {parsed : DpkgStatus} {age : Option Nat} :
    packageHealth parsed 0 age = .repairRequired ↔ parsed.inconsistent ≠ [] := by
  rw [packageHealth]
  split
  · next h => simpa using h
  · next h =>
    have hnil : parsed.inconsistent = [] := by simpa using h
    simp only [hnil, ne_eq, not_true_eq_false, iff_false]
    split
    · exact nofun
    · split <;> exact nofun

theorem packageHealth_healthy {parsed : DpkgStatus} {age : Option Nat}
    (hinconsistent : parsed.inconsistent = []) (hheld : parsed.held = [])
    (hfresh : ∀ days ∈ age, days ≤ 14) : packageHealth parsed 0 age = .healthy := by
  have hage : age.any (14 < ·) = false := by
    cases age with
    | none => rfl
    | some days => simpa using hfresh days rfl
  simp [packageHealth, hinconsistent, hheld, hage]

/-- On a file of consistent packages the check raises no false alarm exactly when every package
that is read is to be installed and is, and none that is not read is installed or, with fresh lists,
on hold. -/
theorem package_health_no_false_alarm_iff (lib : TextLibrary) (target : Target) (files : DpkgFiles)
    (file : TextFile) (hfile : files.status = some file) (hregular : file.regular = true)
    (hsize : file.size ≤ maxSmallFile) (hconsistent : StatusFile file.text)
    (hupdates : safeDirectoryCount files.updates = 0) :
    NoFalseAlarm file.text (Fresh files) (packagesSync lib target files) ↔
      AllInstalled file.text (Fresh files) := by
  obtain ⟨hstatus, hlist, hcount⟩ :=
    packagesSync_read lib target hfile hregular hsize hconsistent.ne_nil
  rw [hupdates] at hstatus
  have hsplit : (paragraphs file.text).countP isInstalled =
      ((paragraphs file.text).take maxParagraphs).countP isInstalled +
        ((paragraphs file.text).drop maxParagraphs).countP isInstalled := by
    rw [← List.countP_append, List.take_append_drop]
  have hunreadCount : ((paragraphs file.text).drop maxParagraphs).countP isInstalled = 0 ↔
      ∀ paragraph ∈ (paragraphs file.text).drop maxParagraphs, ∀ want state,
        Declares paragraph want state → state ≠ .installed := by
    rw [List.countP_eq_zero]
    refine forall₂_congr fun paragraph hparagraph => ?_
    constructor
    · exact fun hnot want state hdeclares heq => hnot ((isInstalled_declares hdeclares).mpr heq)
    · intro hall hinstalled
      obtain ⟨want, -, hdeclares⟩ := List.any_eq_true.mp hinstalled
      exact hall want .installed (of_decide_eq_true hdeclares) rfl
  constructor
  · intro hno
    have hcoherent : (parseDpkgStatus lib file.text).inconsistent = [] := by
      by_contra hne
      exact hno.status (hstatus.trans (packageHealth_repair_iff.mpr hne))
    have hread := hconsistent.inconsistent_iff.mp hcoherent
    have hinstalled := hno.installed
    rw [hcount, hconsistent.installed_eq hread, hsplit] at hinstalled
    refine ⟨hread, fun paragraph hparagraph want state hdeclares => ⟨?_, ?_⟩⟩
    · exact hunreadCount.mp (by omega) paragraph hparagraph want state hdeclares
    · rintro hfresh rfl
      have hhealthy := hstatus.trans
        (packageHealth_healthy hcoherent (hconsistent.held_eq hread) hfresh)
      exact (hno.healthy hfresh).mp hhealthy
        ((onHold_iff hread).mpr ⟨paragraph, hparagraph, state, hdeclares⟩)
  · intro hall
    have hcoherent : (parseDpkgStatus lib file.text).inconsistent = [] :=
      hconsistent.inconsistent_iff.mpr hall.read
    have hunread := hunreadCount.mpr fun paragraph hparagraph want state hdeclares =>
      (hall.unread paragraph hparagraph want state hdeclares).1
    have hnone : Fresh files → ¬ ∃ paragraph ∈ paragraphs file.text, OnHold paragraph := by
      rw [onHold_iff hall.read]
      rintro hfresh ⟨paragraph, hparagraph, state, hdeclares⟩
      exact (hall.unread paragraph hparagraph .hold state hdeclares).2 hfresh rfl
    have hhealthy : Fresh files → (packagesSync lib target files).status = .healthy := fun hfresh =>
      hstatus.trans (packageHealth_healthy hcoherent (hconsistent.held_eq hall.read) hfresh)
    refine ⟨?_, ?_, ?_, fun hfresh => ?_, fun hfresh => ?_⟩
    · rw [hstatus, ne_eq, packageHealth_repair_iff, not_not]
      exact hcoherent
    · rw [hlist, hcoherent]
      rfl
    · rw [hcount, hconsistent.installed_eq hall.read, hsplit, hunread, Nat.add_zero]
    · rw [hhealthy hfresh]
      simp only [reduceCtorEq, false_iff]
      exact hnone hfresh
    · simp [hhealthy hfresh, hnone hfresh]

/-! ### One package -/

def sampleLibrary : TextLibrary where
  sha256 _ := "0123456789abcdef".toList
  isWord := asciiAlnum
  failureLine _ := false
  errorLine _ := false

/-- Packages that have the status and no list that is old. -/
def dpkgFiles (status : String) : DpkgFiles where
  status := some ⟨true, status.length, status.toList⟩
  updates := some []
  extendedStates := none
  lists := none
  sourcesList := none
  sourcesListDirectory := none
  now := 0

theorem statusFile_of_check {text : List Char}
    (hall : ((paragraphs text).all fun paragraph => paragraph.all (· = '\n') ||
      wants.any fun want => states.any fun state => Declares paragraph want state) = true)
    (hany : ((paragraphs text).any fun paragraph => !paragraph.all (· = '\n')) = true) :
    StatusFile text := by
  have hblank : ∀ paragraph : List Char, paragraph.all (· = '\n') = true ↔ Blank paragraph := by
    simp [Blank]
  refine ⟨fun paragraph hparagraph => ?_, ?_⟩
  · have h := List.all_eq_true.mp hall paragraph hparagraph
    rw [Bool.or_eq_true, hblank] at h
    refine h.imp_right fun h => ?_
    obtain ⟨want, -, h⟩ := List.any_eq_true.mp h
    obtain ⟨state, -, h⟩ := List.any_eq_true.mp h
    exact ⟨want, state, of_decide_eq_true h⟩
  · obtain ⟨paragraph, hparagraph, h⟩ := List.any_eq_true.mp hany
    refine ⟨paragraph, hparagraph, fun hempty => ?_⟩
    rw [(hblank paragraph).mpr hempty] at h
    cases h

def installedFile : String := "Package: dpkg\nStatus: install ok installed\n\n"

theorem package_health_sample : NoFalseAlarm installedFile.toList (Fresh (dpkgFiles installedFile))
      (packagesSync sampleLibrary sampleTarget (dpkgFiles installedFile)) := by
  have hparagraphs : paragraphs installedFile.toList =
      ["Package: dpkg\nStatus: install ok installed".toList, []] := by decide +kernel
  have hfirst : Declares "Package: dpkg\nStatus: install ok installed".toList .install .installed := by
    decide +kernel
  refine (package_health_no_false_alarm_iff sampleLibrary sampleTarget (dpkgFiles installedFile)
    ⟨true, installedFile.length, installedFile.toList⟩ rfl rfl (by decide +kernel)
    (statusFile_of_check (by decide +kernel) (by decide +kernel)) rfl).mpr ⟨?_, ?_⟩
  · intro paragraph hparagraph want state hdeclares
    have hm := List.mem_of_mem_take hparagraph
    rw [hparagraphs] at hm
    rcases List.mem_cons.mp hm with rfl | hm
    · exact declares_unique hdeclares hfirst
    · obtain rfl := List.mem_singleton.mp hm
      exact absurd hdeclares (not_declares_blank (List.forall_mem_nil _) want state)
  · have hdrop : (paragraphs installedFile.toList).drop maxParagraphs = [] := by
      rw [hparagraphs]
      decide +kernel
    rw [hdrop]
    exact nofun

def heldFile : String := "Package: linux\nStatus: hold ok installed\n\n"

/-- A package on hold, which is a consistent state, is reported as one that has to be repaired. -/
theorem held_package_false_alarm :
    StatusFile heldFile.toList ∧ safeDirectoryCount (dpkgFiles heldFile).updates = 0 ∧
      Fresh (dpkgFiles heldFile) ∧
      (packagesSync sampleLibrary sampleTarget (dpkgFiles heldFile)).status = .repairRequired ∧
      (packagesSync sampleLibrary sampleTarget (dpkgFiles heldFile)).inconsistentPackages =
        ["linux".toList] ∧
      ¬ NoFalseAlarm heldFile.toList (Fresh (dpkgFiles heldFile))
        (packagesSync sampleLibrary sampleTarget (dpkgFiles heldFile)) := by
  obtain ⟨hstatus, hinconsistent⟩ :
      (packagesSync sampleLibrary sampleTarget (dpkgFiles heldFile)).status = .repairRequired ∧
      (packagesSync sampleLibrary sampleTarget (dpkgFiles heldFile)).inconsistentPackages =
        ["linux".toList] := by decide +kernel
  exact ⟨statusFile_of_check (by decide +kernel) (by decide +kernel), rfl, nofun, hstatus,
    hinconsistent, fun h => h.status hstatus⟩

end Ares.Diagnostics
