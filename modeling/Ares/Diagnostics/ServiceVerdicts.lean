import Ares.Diagnostics.Services

/-! When the verdict on the services of a running system has evidence: `healthy` only where `systemctl`
ran, succeeded and listed no failed unit, and a failure wherever it listed one. -/

namespace Ares.Diagnostics

open Data

/-! ### The listing of `systemctl` -/

def unitTypes : List String :=
  ["service", "socket", "target", "device", "mount", "automount", "swap", "timer", "path", "slice",
    "scope"]

def unitChar (c : Char) : Bool := asciiAlnum c || [':', '_', '.', '\\', '@', '-'].contains c

def isUnitName (name : List Char) : Bool :=
  name.all unitChar && name.length ≤ 255 && unitTypes.any fun type =>
    ('.' :: type.toList).isSuffixOf name && type.length + 1 < name.length

/-- The line lists a failed unit: its name, and `failed` in the third column. -/
def failedUnit (line : List Char) : Bool :=
  match wordsOf line with
  | unit :: _ :: active :: _ => isUnitName unit.toList && active = "failed"
  | _ => false

/-- A healthy verdict has evidence, and a listed failure is detected. -/
structure Honest (sources : ServiceSources) (outcome : Except ServiceError ServiceFailureResult) :
    Prop where
  healthy : ∀ r, outcome = .ok r → r.status = .healthy ∨ healthyFinding ∈ r.findings →
    sources.available = true ∧ ∃ result, sources.run = some result ∧ result.exitCode = 0 ∧
      ∀ line ∈ splitlines result.stdout, failedUnit line = false
  failures : ∀ result, sources.available = true → sources.run = some result →
    (∃ line ∈ (splitlines result.stdout).take 200, failedUnit line = true) →
      ∃ r, outcome = .ok r ∧ r.status = .failuresDetected

/-! ### What is recognised of it -/

def Recognised (lib : TextLibrary) (line : List Char) : Prop :=
  (searchService lib (clean line 500)).isSome = true

def Overlong (line : List Char) : Prop :=
  ∃ word ∈ (wordsOf (clean line 500))[3]?, 64 < word.toList.length

/-- `systemctl` is there, and of what it lists, if it does, enough is recognised. -/
structure Heard (lib : TextLibrary) (sources : ServiceSources) : Prop where
  available : sources.available = true
  listing : ∀ result, sources.run = some result →
    ((∃ line ∈ (splitlines result.stdout).take 200, Recognised lib line) ∧
      ∀ line ∈ (splitlines result.stdout).take 200, Recognised lib line → ¬ Overlong line) ∨
    (result.exitCode = 0 ∧ ∀ line ∈ splitlines result.stdout, failedUnit line = false) ∨
    ((∃ line ∈ (splitlines result.stdout).take 200, Recognised lib line ∧ Overlong line) ∧
      ∀ line ∈ (splitlines result.stdout).take 200, failedUnit line = false)

variable {lib : TextLibrary}

theorem serviceAt_length {before : Option Char} {text unit : List Char}
    (h : serviceAt lib before text = some unit) : 1 ≤ unit.length ∧ unit.length ≤ 160 := by
  unfold serviceAt at h
  split at h
  · obtain ⟨k, hfind, rfl⟩ := Option.map_eq_some_iff.mp h
    have hk := List.mem_of_find?_eq_some hfind
    rw [List.mem_reverse, List.mem_range'_1] at hk
    have hmatch := List.find?_some hfind
    simp only [Bool.and_eq_true, List.isPrefixOf_iff_prefix] at hmatch
    have hlength := hmatch.1.2.length_le
    have hsuffix : serviceSuffix.length = 8 := rfl
    rw [List.length_drop, hsuffix] at hlength
    rw [List.length_take, hsuffix]
    omega
  · cases h

theorem searchService_length {text unit : List Char} (h : searchService lib text = some unit) :
    1 ≤ unit.length ∧ unit.length ≤ 160 := by
  have walk : ∀ (text : List Char) (before : Option Char), serviceFrom lib before text = some unit →
      1 ≤ unit.length ∧ unit.length ≤ 160 := by
    intro text
    induction text with
    | nil => exact fun _ h => nomatch h
    | cons c rest ih =>
      intro before h
      rw [serviceFrom, Option.or_eq_some_iff] at h
      rcases h with h | ⟨-, h⟩
      · exact serviceAt_length h
      · exact ih (some c) h
  exact walk text none h

theorem wordsOf_ne_nil {line : List Char} {word : String} (h : word ∈ wordsOf line) :
    1 ≤ word.toList.length := by
  obtain ⟨part, hpart, rfl⟩ := List.mem_map.mp h
  have hne : part ≠ [] := by simpa using (List.mem_filter.mp hpart).2
  rw [String.toList_ofList]
  exact List.length_pos_iff.mpr hne

theorem failedService_valid {line : List Char} {service : FailedService}
    (h : failedService lib line = some service) : service.valid = true ↔ ¬ Overlong line := by
  obtain ⟨unit, hunit, rfl⟩ := Option.map_eq_some_iff.mp h
  have hlength := searchService_length hunit
  have hreason : "Unidad reportada como fallida por systemd.".length ≤ 320 := by decide
  simp only [FailedService.valid, Overlong, Bool.and_eq_true, decide_eq_true_eq, hlength, hreason,
    true_and, and_true]
  cases hword : (wordsOf (clean line 500))[3]? with
  | none => simp
  | some word =>
    have := wordsOf_ne_nil (List.mem_of_getElem? hword)
    simp only [Option.map_some, Option.getD_some, Option.mem_some_iff, exists_eq_left', Nat.not_lt]
    omega

theorem failedService_isSome {line : List Char} :
    (failedService lib line).isSome = true ↔ Recognised lib line := by
  rw [failedService, Option.isSome_map]
  rfl

theorem failedLines_eq_nil {text : List Char} : failedLines lib text = [] ↔
    ∀ line ∈ (splitlines text).take 200, ¬ Recognised lib line := by
  rw [failedLines, List.filterMap_eq_nil_iff]
  refine forall₂_congr fun line _ => ?_
  rw [← failedService_isSome, Bool.not_eq_true, Option.isSome_eq_false_iff, Option.isNone_iff_eq_none]

theorem failedLines_valid {text : List Char} :
    (failedLines lib text).all FailedService.valid = true ↔
      ∀ line ∈ (splitlines text).take 200, Recognised lib line → ¬ Overlong line := by
  rw [List.all_eq_true]
  constructor
  · intro h line hline hrecognised
    obtain ⟨service, hservice⟩ := Option.isSome_iff_exists.mp (failedService_isSome.mpr hrecognised)
    exact (failedService_valid hservice).mp
      (h service (List.mem_filterMap.mpr ⟨line, hline, hservice⟩))
  · intro h service hservice
    obtain ⟨line, hline, hfailed⟩ := List.mem_filterMap.mp hservice
    refine (failedService_valid hfailed).mpr (h line hline (failedService_isSome.mp ?_))
    rw [hfailed]
    rfl

/-! ### The verdict of a running system -/

section Runtime

variable {target : Target} (hruntime : target.scope ≠ .installedSystemOffline)
  {sources : ServiceSources}

include hruntime

variable (lib) in
theorem services_unavailable (h : sources.available = false) :
    ∃ r, services lib target sources = .ok r ∧ r.status = .healthy := by
  rw [services, if_pos hruntime, systemctlFailed, h]
  exact ⟨_, rfl, rfl⟩

variable (havailable : sources.available = true)

include havailable

theorem services_raised (h : sources.run = none) :
    services lib target sources = .error .runner := by
  rw [services, if_pos hruntime, systemctlFailed, havailable, h]
  rfl

variable {result : ProcessResult} (hrun : sources.run = some result)

include hrun

variable (lib) in
theorem services_invalid (h : (failedLines lib result.stdout).all FailedService.valid = false) :
    services lib target sources = .error .validation := by
  rw [services, if_pos hruntime, systemctlFailed, havailable, hrun]
  simp only [if_true, parseFailedServices, h, Bool.false_eq_true, if_false]

theorem services_read (h : (failedLines lib result.stdout).all FailedService.valid = true) :
    ∃ limitations, services lib target sources = .ok (serviceResult lib target
      (if failedLines lib result.stdout ≠ [] then .failuresDetected else .healthy)
      (failedLines lib result.stdout) (historicalLogs sources.runtimeLogs) limitations) := by
  rw [services, if_pos hruntime, systemctlFailed, havailable, hrun]
  simp only [if_true, parseFailedServices, h]
  exact ⟨_, rfl⟩

end Runtime

theorem failuresFinding_ne (failed : List FailedService) :
    healthyFinding ≠ failuresFinding failed := by
  intro h
  have hid : healthyFinding.id = "services.failures.detected" := congrArg DiagnosticFinding.id h
  exact absurd hid (by decide)

/-- The verdict of a running system has evidence exactly when `systemctl` is there and, if it lists
anything, enough of it is recognised. -/
theorem services_honest_iff (lib : TextLibrary) (target : Target) (sources : ServiceSources)
    (hruntime : target.scope ≠ .installedSystemOffline) :
    Honest sources (services lib target sources) ↔ Heard lib sources := by
  constructor
  · intro h
    have havailable : sources.available = true := by
      by_contra hnot
      obtain ⟨r, hr, hhealthy⟩ := services_unavailable lib hruntime (Bool.not_eq_true _ ▸ hnot)
      exact hnot (h.healthy r hr (.inl hhealthy)).1
    refine ⟨havailable, fun result hrun => ?_⟩
    by_cases hvalid : (failedLines lib result.stdout).all FailedService.valid = true
    · obtain ⟨limitations, hread⟩ := services_read hruntime havailable hrun hvalid
      by_cases hfailed : failedLines lib result.stdout = []
      · right; left
        rw [if_neg (not_not.mpr hfailed)] at hread
        obtain ⟨-, other, hother, hexit, hlines⟩ := h.healthy _ hread (.inl rfl)
        obtain rfl := Option.some.inj (hrun.symm.trans hother)
        exact ⟨hexit, hlines⟩
      · left
        have hsome := mt failedLines_eq_nil.mpr hfailed
        push Not at hsome
        exact ⟨hsome, failedLines_valid.mp hvalid⟩
    · right; right
      have hinvalid := services_invalid lib hruntime havailable hrun
        (Bool.not_eq_true _ ▸ hvalid)
      have hsome := mt failedLines_valid.mpr hvalid
      push Not at hsome
      refine ⟨hsome, fun line hline => ?_⟩
      by_contra hfailed
      obtain ⟨r, hr, -⟩ := h.failures result havailable hrun
        ⟨line, hline, by simpa using hfailed⟩
      rw [hinvalid] at hr
      cases hr
  · intro h
    cases hrun : sources.run with
    | none =>
      refine ⟨fun r hr => ?_, fun result _ hother => ?_⟩
      · rw [services_raised hruntime h.available hrun] at hr
        cases hr
      · rw [hrun] at hother
        cases hother
    | some result =>
      rcases h.listing result hrun with ⟨hsome, hshort⟩ | ⟨hexit, hlines⟩ | ⟨hlong, hlines⟩
      · -- a recognised unit: the verdict is a failure
        obtain ⟨line, hline, hrecognised⟩ := hsome
        have hfailed : failedLines lib result.stdout ≠ [] := fun hnil =>
          failedLines_eq_nil.mp hnil line hline hrecognised
        obtain ⟨limitations, hread⟩ :=
          services_read hruntime h.available hrun (failedLines_valid.mpr hshort)
        rw [if_pos hfailed] at hread
        refine ⟨fun r hr hhealthy => ?_, fun _ _ _ _ => ⟨_, hread, rfl⟩⟩
        obtain rfl := Except.ok.inj (hread.symm.trans hr)
        rcases hhealthy with hstatus | hfinding
        · cases hstatus
        · have heq := List.mem_singleton.mp hfinding
          rw [serviceFinding, if_pos hfailed] at heq
          exact absurd heq (failuresFinding_ne _)
      · -- no failed unit is listed
        have hevidence : ∃ result, sources.run = some result ∧ result.exitCode = 0 ∧
            ∀ line ∈ splitlines result.stdout, failedUnit line = false :=
          ⟨result, hrun, hexit, hlines⟩
        refine ⟨fun _ _ _ => ⟨h.available, hevidence⟩, fun other _ hother => ?_⟩
        obtain rfl := Option.some.inj (hrun.symm.trans hother)
        rintro ⟨line, hline, hfailed⟩
        rw [hlines line (List.mem_of_mem_take hline)] at hfailed
        cases hfailed
      · -- a state that is too long: the call raises
        obtain ⟨line, hline, hrecognised, hoverlong⟩ := hlong
        have hinvalid : (failedLines lib result.stdout).all FailedService.valid = false := by
          rw [← Bool.not_eq_true, failedLines_valid]
          exact fun hshort => hshort line hline hrecognised hoverlong
        have herror := services_invalid lib hruntime h.available hrun hinvalid
        refine ⟨fun r hr => ?_, fun other _ hother => ?_⟩
        · rw [herror] at hr
          cases hr
        · obtain rfl := Option.some.inj (hrun.symm.trans hother)
          rintro ⟨failed, hmem, hfailed⟩
          rw [hlines failed hmem] at hfailed
          cases hfailed

/-! ### Two listings -/

def verdictLibrary : TextLibrary where
  sha256 _ := []
  isWord c := asciiAlnum c || c = '_'
  failureLine _ := false
  errorLine _ := false

/-- `systemctl` lists some text and exits with 0. -/
def listing (stdout : String) : ServiceSources := ⟨true, some ⟨0, stdout.toList⟩, [], []⟩

def failedSsh : String := "ssh.service loaded failed failed OpenBSD Secure Shell server\n"

theorem services_honest_sample :
    Honest (listing failedSsh) (services verdictLibrary sampleTarget (listing failedSsh)) := by
  have hlines : (splitlines failedSsh.toList).take 200 =
      ["ssh.service loaded failed failed OpenBSD Secure Shell server".toList] := by decide +kernel
  have hfound : (searchService verdictLibrary
      (clean "ssh.service loaded failed failed OpenBSD Secure Shell server".toList 500)).isSome = true ∧
      (wordsOf (clean "ssh.service loaded failed failed OpenBSD Secure Shell server".toList
        500))[3]? = some "failed" := by decide +kernel
  refine (services_honest_iff verdictLibrary sampleTarget (listing failedSsh) (by decide)).mpr
    ⟨rfl, fun result hrun => .inl ?_⟩
  obtain rfl := Option.some.inj hrun
  dsimp only
  rw [hlines]
  refine ⟨⟨_, List.mem_singleton_self _, hfound.1⟩, fun line hline _ => ?_⟩
  obtain rfl := List.mem_singleton.mp hline
  rintro ⟨word, hword, hlong⟩
  rw [hfound.2, Option.mem_some_iff] at hword
  subst hword
  exact absurd hlong (by decide)

def failedMount : String := "mnt-data.mount loaded failed failed /mnt/data\n"

/-- A failed mount is listed, and the verdict is healthy; so it is without `systemctl`. -/
theorem failed_mount_healthy : ((splitlines failedMount.toList).all failedUnit = true ∧
      (services verdictLibrary sampleTarget (listing failedMount)).toOption.map (·.status) =
        some .healthy ∧
      ¬ Honest (listing failedMount) (services verdictLibrary sampleTarget (listing failedMount))) ∧
    ¬ Honest ⟨false, none, [], []⟩ (services verdictLibrary sampleTarget ⟨false, none, [], []⟩) := by
  obtain ⟨hlisted, hfirst, hhealthy⟩ : (splitlines failedMount.toList).all failedUnit = true ∧
      ((splitlines failedMount.toList).take 200).any failedUnit = true ∧
      (services verdictLibrary sampleTarget (listing failedMount)).toOption.map (·.status) =
        some .healthy := by decide +kernel
  refine ⟨⟨hlisted, hhealthy, fun h => ?_⟩, fun h => ?_⟩
  · obtain ⟨line, hline, hfailed⟩ := List.any_eq_true.mp hfirst
    obtain ⟨r, hr, hstatus⟩ := h.failures _ rfl rfl ⟨line, hline, hfailed⟩
    rw [hr, Except.toOption, Option.map_some, hstatus] at hhealthy
    cases hhealthy
  · obtain ⟨r, hr, hstatus⟩ := services_unavailable verdictLibrary
      (show sampleTarget.scope ≠ .installedSystemOffline by decide)
      (show (ServiceSources.mk false none [] []).available = false from rfl)
    cases (h.healthy r hr (.inl hstatus)).1

end Ares.Diagnostics
