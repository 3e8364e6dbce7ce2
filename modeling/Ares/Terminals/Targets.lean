import Ares.Coop.Apart
import Ares.TerminalBroker.Exposure
import Ares.Terminals.Visible

/-! What the fingerprint of a target fixes.  The service hashes eight fields of a resource; the broker
takes its source from the technical path, which is hashed, and from the details, which are not. -/

namespace Ares.Terminals

open Coop Data
open Agent (ResourceKind)
open TerminalBroker (prepareReadOnlySource mountReadOnly isDevice)

inductive MountState
  | mounted | unmounted | partial_ | unknown
deriving DecidableEq

/-- The fields that the fingerprint covers and neither the service nor the broker reads. -/
structure Hashed where
  stableIdentity : String
  filesystem : Option String
  sizeBytes : Option Nat
  mountState : MountState
  confidence : String
deriving DecidableEq

/-- What `_target_fingerprint` hashes. -/
structure TargetPayload extends Hashed where
  resourceId : String
  kind : ResourceKind
  technicalPath : Option String
deriving DecidableEq

/-- `hashed` finds the other fields in what the resource has besides. -/
def targetPayload (hashed : String → Hashed) (resource : ResourceCandidate) : TargetPayload where
  toHashed := hashed resource.rest
  resourceId := resource.resourceId
  kind := resource.kind
  technicalPath := resource.technicalPath

/-- The library with the fingerprint that is computed from the payload. -/
def fingerprinting (sha256 : TargetPayload → String) (hashed : String → Hashed) (lib : Library) :
    Library :=
  { lib with targetFingerprint := fun resource => sha256 (targetPayload hashed resource) }

/-! ### The source of a resource -/

def steady (answer : (o : TerminalBroker.Op) → TerminalBroker.Res o) :
    Server TerminalBroker.State TerminalBroker.Res :=
  fun o s => (answer o, s)

/-- What `_prepare_read_only_source` comes to for the plan with the target of the resource. -/
def exposes (lib : Library) (answer : (o : TerminalBroker.Op) → TerminalBroker.Res o) (task : Nat)
    (plan : TerminalBroker.TerminalPlan) (sessionDir : Path) (s : TerminalBroker.State)
    (resource : ResourceCandidate) : Except TerminalBroker.Error (String × Bool) :=
  ((prepareReadOnlySource task { plan with target := some (targetOf lib resource) } sessionDir).serve
    (steady answer) s).1

/-- On every machine, the two resources have the same source, or fail alike. -/
def SameExposure (lib : Library) (resource other : ResourceCandidate) : Prop :=
  ∀ answer task plan sessionDir s,
    exposes lib answer task plan sessionDir s resource =
      exposes lib answer task plan sessionDir s other

def mountpointOf (resource : ResourceCandidate) : String :=
  (resource.technicalDetails.lookup "mountpoint").getD ""

/-- The directory that is tried before the technical path: the mount point of the details, unless it
is missing, is spelled `/` or is the technical path itself. -/
def triedFirst (resource : ResourceCandidate) : Option String :=
  resource.technicalPath.bind fun technicalPath =>
    if mountpointOf resource = "" ∨ mountpointOf resource = "/" then none
    else if pathText (mountpointOf resource) = pathText technicalPath ∧ pathText technicalPath ≠ "/"
      then none
    else some (pathText (mountpointOf resource))

section Outcomes

variable {lib : Library} {answer : (o : TerminalBroker.Op) → TerminalBroker.Res o} {task : Nat}
  {plan : TerminalBroker.TerminalPlan} {sessionDir : Path} {s : TerminalBroker.State}
  {resource other : ResourceCandidate} {technicalPath : String}

def mountOutcome (answer : (o : TerminalBroker.Op) → TerminalBroker.Res o) (source : String)
    (sessionDir : Path) : Except TerminalBroker.Error (String × Bool) :=
  let root := sessionDir ++ ["root"]
  if !isDevice source then .error (.broker "TERMINAL_TARGET_SOURCE_UNSUPPORTED")
  else
    match answer (.mkdir root 0o700 false false), answer (.mount source root) with
    | .error e, _ | .ok _, .error e => .error e
    | .ok _, .ok returncode => if returncode = 0 then .ok (root.str, true)
      else .error (.broker "TERMINAL_TARGET_READ_ONLY_MOUNT_FAILED")

def technicalOutcome (answer : (o : TerminalBroker.Op) → TerminalBroker.Res o) (source : String)
    (sessionDir : Path) : Except TerminalBroker.Error (String × Bool) :=
  match answer (.isDir source) with
  | .error e => .error e
  | .ok there => if there && source ≠ "/" then .ok (source, false)
    else mountOutcome answer source sessionDir

/-- The result where a directory may be tried first. -/
def outcome (answer : (o : TerminalBroker.Op) → TerminalBroker.Res o) (source : String)
    (sessionDir : Path) : Option String → Except TerminalBroker.Error (String × Bool)
  | none => technicalOutcome answer source sessionDir
  | some first =>
    match answer (.isDir first) with
    | .error e => .error e
    | .ok true => .ok (first, false)
    | .ok false => technicalOutcome answer source sessionDir

theorem serve_attempt (o : TerminalBroker.Op) :
    (TerminalBroker.attempt task o).serve (steady answer) s =
      (answer o, s.note (.called task o)) := by
  have hnote : (Proc.modify (TerminalBroker.State.note (.called task o)) :
      TerminalBroker.Task Unit).serve (steady answer) s = (.ok (), s.note (.called task o)) := rfl
  rw [TerminalBroker.attempt, bind_eq, serve_bind_ok hnote]
  exact serve_ofExcept _

theorem serve_attempt_bind {α : Type} (o : TerminalBroker.Op) (f : o.Answer → TerminalBroker.Task α) :
    (((TerminalBroker.attempt task o).bind f).serve (steady answer) s).1 =
      match answer o with
      | .ok a => ((f a).serve (steady answer) (s.note (.called task o))).1
      | .error e => .error e := by
  rw [serve_bind, serve_attempt]
  cases answer o <;> rfl

theorem serve_mountReadOnly (source : String) :
    ((mountReadOnly task source sessionDir).serve (steady answer) s).1 =
      mountOutcome answer source sessionDir := by
  rw [mountReadOnly, mountOutcome]
  cases isDevice source with
  | false => rfl
  | true =>
    simp only [require, if_true, bind_eq, Proc.bind, Bool.not_true, Bool.false_eq_true,
      if_false]
    rw [serve_attempt_bind]
    cases answer (.mkdir (sessionDir ++ ["root"]) 0o700 false false) with
    | error e => rfl
    | ok u =>
      simp only []
      rw [serve_attempt_bind]
      cases answer (.mount source (sessionDir ++ ["root"])) with
      | error e => rfl
      | ok returncode =>
        by_cases h : returncode = 0
        · simp [h, Proc.bind]
        · simp [h, Proc.bind]

theorem serve_technical (source : String) :
    (((TerminalBroker.attempt task (.isDir source)).bind fun there =>
        if there && source ≠ "/" then pure (source, false)
        else mountReadOnly task source sessionDir).serve (steady answer) s).1 =
      technicalOutcome answer source sessionDir := by
  rw [serve_attempt_bind, technicalOutcome]
  cases answer (.isDir source) with
  | error e => rfl
  | ok there =>
    simp only []
    split
    · rfl
    · exact serve_mountReadOnly source

theorem serve_first (first source : String) :
    (((TerminalBroker.attempt task (.isDir first)).bind fun existing =>
        if existing then pure (first, false)
        else (TerminalBroker.attempt task (.isDir source)).bind fun there =>
          if there && source ≠ "/" then pure (source, false)
          else mountReadOnly task source sessionDir).serve (steady answer) s).1 =
      outcome answer source sessionDir (some first) := by
  rw [serve_attempt_bind, outcome]
  cases answer (.isDir first) with
  | error e => rfl
  | ok existing =>
    cases existing with
    | true => rfl
    | false => exact serve_technical source

theorem outcome_same {source : String} (h : source ≠ "/") :
    outcome answer source sessionDir (some source) = technicalOutcome answer source sessionDir := by
  rw [outcome, technicalOutcome]
  cases answer (.isDir source) with
  | error e => rfl
  | ok there => cases there <;> simp [h]

theorem serve_prepare (htarget : plan.target = some (targetOf lib resource))
    (hpath : resource.technicalPath = some technicalPath) :
    ((prepareReadOnlySource task plan sessionDir).serve (steady answer) s).1 =
      outcome answer (pathText technicalPath) sessionDir (triedFirst resource) := by
  have hmountpoint : (targetOf lib resource).mountpoint = mountpointOf resource := rfl
  have htechnical : (targetOf lib resource).technicalPath = some technicalPath := hpath
  simp only [prepareReadOnlySource, htarget, htechnical, hmountpoint, ofOption, bind_eq,
    Proc.bind, triedFirst, hpath, Option.bind_some]
  by_cases hnamed : mountpointOf resource = "" ∨ mountpointOf resource = "/"
  · have hskip : (decide (mountpointOf resource ≠ "") &&
        decide (mountpointOf resource ≠ "/")) = false := by
      simpa [or_iff_not_imp_left] using hnamed
    rw [if_pos hnamed, hskip]
    exact serve_technical (pathText technicalPath)
  · have hasked : (decide (mountpointOf resource ≠ "") &&
        decide (mountpointOf resource ≠ "/")) = true := by
      simpa [not_or] using hnamed
    rw [if_neg hnamed, hasked, if_pos rfl]
    refine (serve_first (pathText (mountpointOf resource)) (pathText technicalPath)).trans ?_
    split_ifs with hsame
    · rw [hsame.1, outcome_same hsame.2]
      rfl
    · rfl

theorem serve_prepare_none (htarget : plan.target = some (targetOf lib resource))
    (hpath : resource.technicalPath = none) :
    ((prepareReadOnlySource task plan sessionDir).serve (steady answer) s).1 =
      .error (.broker "TERMINAL_TARGET_INVALID") := by
  have htechnical : (targetOf lib resource).technicalPath = none := hpath
  simp only [prepareReadOnlySource, htarget, htechnical, ofOption, bind_eq, Proc.bind]
  rfl

/-! ### Two resources -/

def onlyDir (path : String) : (o : TerminalBroker.Op) → TerminalBroker.Res o
  | .isDir p => .ok (p = path)
  | .mount _ _ => .ok 32
  | o => TerminalBroker.sampleAnswer o

theorem outcome_onlyDir {path source : String} (h : source ≠ path ∨ source = "/") :
    ∀ r, technicalOutcome (onlyDir path) source sessionDir ≠ .ok (r, false) := by
  intro r heq
  have hcond : (decide (source = path) && decide (source ≠ "/")) = false := by
    rcases h with h | h <;> simp [h]
  have hmount : mountOutcome (onlyDir path) source sessionDir = .ok (r, false) := by
    rw [← heq, technicalOutcome]
    simp only [onlyDir, hcond, Bool.false_eq_true, if_false]
  rw [mountOutcome] at hmount
  split at hmount
  · cases hmount
  · simp [onlyDir, TerminalBroker.sampleAnswer] at hmount

theorem outcome_differs {path source : String} {first : Option String}
    (hpath : source ≠ path ∨ source = "/") (hfirst : first ≠ some path) :
    outcome (onlyDir path) source sessionDir (some path) ≠
      outcome (onlyDir path) source sessionDir first := by
  have htaken : outcome (onlyDir path) source sessionDir (some path) = .ok (path, false) := by
    simp [outcome, onlyDir]
  rw [htaken]
  intro heq
  cases first with
  | none => exact outcome_onlyDir hpath path heq.symm
  | some other =>
    have hother : (onlyDir path (.isDir other) : Except TerminalBroker.Error Bool) = .ok false := by
      simpa [onlyDir] using hfirst
    rw [outcome, hother] at heq
    exact outcome_onlyDir hpath path heq.symm

theorem triedFirst_spec {path : String} (hpath : resource.technicalPath = some technicalPath)
    (h : triedFirst resource = some path) :
    pathText technicalPath ≠ path ∨ pathText technicalPath = "/" := by
  simp only [triedFirst, hpath, Option.bind_some] at h
  split_ifs at h with hnamed hsame
  obtain rfl := Option.some.inj h
  by_contra hnot
  rw [not_or, not_not] at hnot
  exact hsame ⟨hnot.1.symm, hnot.2⟩

theorem sameExposure_iff (h : resource.technicalPath = other.technicalPath) :
    SameExposure lib resource other ↔ triedFirst resource = triedFirst other := by
  cases hpath : resource.technicalPath with
  | none =>
    rw [hpath] at h
    refine iff_of_true (fun answer task plan sessionDir s => ?_) (by simp [triedFirst, hpath, ← h])
    rw [exposes, exposes, serve_prepare_none rfl hpath, serve_prepare_none rfl h.symm]
  | some technicalPath =>
    rw [hpath] at h
    have hexposes : ∀ answer task plan sessionDir s, (exposes lib answer task plan sessionDir s resource =
        exposes lib answer task plan sessionDir s other) ↔
          outcome answer (pathText technicalPath) sessionDir (triedFirst resource) =
            outcome answer (pathText technicalPath) sessionDir (triedFirst other) := by
      intro answer task plan sessionDir s
      rw [exposes, exposes, serve_prepare rfl hpath, serve_prepare rfl h.symm]
    constructor
    · intro hsame
      have heq := fun answer =>
        (hexposes answer 0 TerminalBroker.samplePlan [] TerminalBroker.plainState).mp (hsame _ _ _ _ _)
      cases hfirst : triedFirst resource with
      | some path =>
        by_contra hne
        exact outcome_differs (triedFirst_spec hpath hfirst) (Ne.symm hne) (hfirst ▸ heq _)
      | none =>
        cases hother : triedFirst other with
        | none => rfl
        | some path =>
          have hdiffers : outcome (onlyDir path) _ [] (some path) ≠ outcome (onlyDir path) _ [] none :=
            outcome_differs (triedFirst_spec h.symm hother) nofun
          exact absurd (by simpa [hfirst, hother] using (heq (onlyDir path)).symm) hdiffers
    · intro heq answer task plan sessionDir s
      rw [hexposes, heq]

end Outcomes

/-! ### The fingerprint -/

section Fingerprints

variable {sha256 : TargetPayload → String} {hashed : String → Hashed} {lib : Library}
  {resource other planned : ResourceCandidate} {μ : Type} {server : Server μ Res} {cfg : Config}
  {plan : TerminalPlan} {m : μ}

theorem technicalPath_of_fingerprint (hsha : Function.Injective sha256)
    (h : (fingerprinting sha256 hashed lib).targetFingerprint resource =
      (fingerprinting sha256 hashed lib).targetFingerprint other) :
    resource.technicalPath = other.technicalPath :=
  congrArg TargetPayload.technicalPath (hsha h)

variable (server cfg plan m) in
theorem revalidateTarget_obeys : (revalidateTarget cfg plan).Obeys (serverProtocol server)
      (fun _ _ => ∃ catalog current, (server (.call .catalog) m).1 = .ok catalog ∧
        catalog.find? (fun resource => some resource.resourceId = plan.targetResourceId) =
          some current ∧ some (cfg.lib.targetFingerprint current) = plan.targetFingerprint)
      (fun _ _ => True) m := by
  simp only [revalidateTarget, attempt, Proc.attempt, bind_eq, obeys_bind,
    obeys_require, obeys_call, obeys_ofExcept, obeys_ofOption]
  refine ⟨fun _ => ⟨fun catalog hcatalog => ⟨fun current hcurrent => ⟨fun hfingerprint =>
    ⟨fun _ => ⟨catalog, current, hcatalog, hcurrent, ?_⟩, fun _ => trivial⟩, fun _ => trivial⟩,
    fun _ => trivial⟩, fun _ _ => trivial⟩, fun _ => trivial⟩
  exact of_decide_eq_true hfingerprint

/-- Two resources with one fingerprint have one source on every machine exactly when the same
directory is tried before their technical path, and so do the resource of a plan and the entry of
the catalog that the plan is revalidated against. -/
theorem exposure_fixed_iff (sha256 : TargetPayload → String) (hsha : Function.Injective sha256)
    (hashed : String → Hashed) (lib : Library) :
    (∀ resource other : ResourceCandidate,
      (fingerprinting sha256 hashed lib).targetFingerprint resource =
        (fingerprinting sha256 hashed lib).targetFingerprint other →
      (SameExposure (fingerprinting sha256 hashed lib) resource other ↔
        triedFirst resource = triedFirst other)) ∧
    ∀ (μ : Type) (server : Server μ Res) (cfg : Config) (plan : TerminalPlan)
      (planned : ResourceCandidate) (s s' : State) (m m' : μ),
      cfg.lib = fingerprinting sha256 hashed lib →
      plan.targetFingerprint = some (cfg.lib.targetFingerprint planned) →
      (revalidateTarget cfg plan).apart server s m = (.ok (), s', m') →
      ∃ catalog current, (server (.call .catalog) m).1 = .ok catalog ∧
        catalog.find? (fun resource => some resource.resourceId = plan.targetResourceId) =
          some current ∧
        (SameExposure cfg.lib planned current ↔ triedFirst planned = triedFirst current) := by
  refine ⟨fun resource other h => sameExposure_iff (technicalPath_of_fingerprint hsha h), ?_⟩
  intro μ server cfg plan planned s s' m m' hlib hplan hrun
  have hends := (revalidateTarget_obeys server cfg plan m).apart (s := s)
  rw [hrun] at hends
  obtain ⟨catalog, current, hcatalog, hcurrent, hfingerprint⟩ := hends
  refine ⟨catalog, current, hcatalog, hcurrent, sameExposure_iff ?_⟩
  rw [hplan, Option.some.injEq, hlib] at hfingerprint
  exact technicalPath_of_fingerprint hsha hfingerprint.symm

end Fingerprints

/-! ### Another mount point -/

def framed : List Char → List Char
  | [] => ['.']
  | c :: cs => '!' :: c :: framed cs

theorem framed_append_inj {a b x y : List Char} (h : framed a ++ x = framed b ++ y) :
    a = b ∧ x = y := by
  induction a generalizing b with
  | nil =>
    cases b with
    | nil => exact ⟨rfl, List.append_cancel_left h⟩
    | cons => exact absurd (List.cons.inj h).1 (by decide)
  | cons c cs ih =>
    cases b with
    | nil => exact absurd (List.cons.inj h).1 (by decide)
    | cons d ds =>
      obtain ⟨hc, hrest⟩ := List.cons.inj (List.cons.inj h).2
      obtain ⟨rfl, hxy⟩ := ih hrest
      exact ⟨by rw [hc], hxy⟩

def optionText : Option String → List Char
  | none => []
  | some text => '+' :: text.toList

def sizeText : Option Nat → List Char
  | none => []
  | some n => '+' :: List.replicate n '1'

def kindText (kind : ResourceKind) : List Char := List.replicate kind.ctorIdx '1'

def mountText (state : MountState) : List Char := List.replicate state.ctorIdx '1'

theorem optionText_inj {a b : Option String} (h : optionText a = optionText b) : a = b := by
  cases a <;> cases b <;> simp_all [optionText, String.toList_inj]

theorem sizeText_inj {a b : Option Nat} (h : sizeText a = sizeText b) : a = b := by
  cases a <;> cases b <;> simp_all [sizeText]

theorem kindText_inj {a b : ResourceKind} (h : kindText a = kindText b) : a = b := by
  have hlength := congrArg List.length h
  cases a <;> cases b <;> first | rfl | simp [kindText, ResourceKind.ctorIdx] at hlength

theorem mountText_inj {a b : MountState} (h : mountText a = mountText b) : a = b := by
  have hlength := congrArg List.length h
  cases a <;> cases b <;> first | rfl | simp [mountText, MountState.ctorIdx] at hlength

/-- A digest that keeps everything. -/
def sampleSha256 (p : TargetPayload) : String :=
  String.ofList (framed p.stableIdentity.toList ++ (framed (optionText p.filesystem) ++
    (framed (sizeText p.sizeBytes) ++ (framed (mountText p.mountState) ++
      (framed p.confidence.toList ++ (framed p.resourceId.toList ++ (framed (kindText p.kind) ++
        optionText p.technicalPath)))))))

theorem sampleSha256_injective : Function.Injective sampleSha256 := by
  intro a b h
  obtain ⟨hidentity, h⟩ := framed_append_inj (String.ofList_inj.mp h)
  obtain ⟨hfilesystem, h⟩ := framed_append_inj h
  obtain ⟨hsize, h⟩ := framed_append_inj h
  obtain ⟨hmount, h⟩ := framed_append_inj h
  obtain ⟨hconfidence, h⟩ := framed_append_inj h
  obtain ⟨hid, h⟩ := framed_append_inj h
  obtain ⟨hkind, hpath⟩ := framed_append_inj h
  obtain ⟨⟨_, _, _, _, _⟩, _, _, _⟩ := a
  obtain ⟨⟨_, _, _, _, _⟩, _, _, _⟩ := b
  simp only at hidentity hfilesystem hsize hmount hconfidence hid hkind hpath
  simp only [String.toList_inj.mp hidentity, optionText_inj hfilesystem, sizeText_inj hsize,
    mountText_inj hmount, String.toList_inj.mp hconfidence, String.toList_inj.mp hid,
    kindText_inj hkind, optionText_inj hpath]

def sampleHashed (_ : String) : Hashed where
  stableIdentity := "uuid:0000"
  filesystem := some "ext4"
  sizeBytes := none
  mountState := .mounted
  confidence := "1.0"

/-- The sample resource with a mount point in its details. -/
def mountedAt (mountpoint : String) : ResourceCandidate :=
  { sampleResource with technicalDetails := [("mountpoint", mountpoint)] }

theorem exposure_fixed_sample :
    SameExposure (fingerprinting sampleSha256 sampleHashed sampleLibrary) (mountedAt "/mnt/system")
      (mountedAt "/mnt/./system") ↔
        triedFirst (mountedAt "/mnt/system") = triedFirst (mountedAt "/mnt/./system") :=
  (exposure_fixed_iff sampleSha256 sampleSha256_injective sampleHashed sampleLibrary).1
    (mountedAt "/mnt/system") (mountedAt "/mnt/./system") rfl

/-- The fingerprint stays when the mount point of the details is another, and the source does not. -/
theorem swapped_under_fingerprint :
    ¬∀ (sha256 : TargetPayload → String) (hashed : String → Hashed) (lib : Library)
      (resource other : ResourceCandidate), Function.Injective sha256 →
      (fingerprinting sha256 hashed lib).targetFingerprint resource =
        (fingerprinting sha256 hashed lib).targetFingerprint other →
      SameExposure (fingerprinting sha256 hashed lib) resource other := by
  intro claim
  have hsame := claim sampleSha256 sampleHashed sampleLibrary (mountedAt "/mnt/system")
    (mountedAt "/etc") sampleSha256_injective rfl
  have hpath : (mountedAt "/mnt/system").technicalPath = (mountedAt "/etc").technicalPath := rfl
  exact absurd ((sameExposure_iff hpath).mp hsame) (by decide +kernel)

end Ares.Terminals
