import Ares.Consent.Operator

/-! What a reply of the authority tells its client: the id that a create request comes back with is
that of a challenge which shows the plan of the request, and no reply names another operator than
the configured one. -/

namespace Ares.Consent

open Coop Data

def Request.creates : Request → Bool
  | .create _ _ | .filesystemCreate _ | .storageCreate _ => true
  | _ => false

/-- The challenge shows the plan of the request. -/
def Request.Shows : Request → Challenge → Prop
  | .create plan sessionId, c => ∃ p, plan = some p ∧ sessionId = some c.sessionId ∧
      c.kind = .backup ∧ c.capabilityId = "backup.create" ∧ c.planId = p.id ∧
      c.fingerprint = p.fingerprintSha256 ∧ c.correlationId = p.backupId ∧
      ("source", .str p.sourcePath) ∈ c.publicPayload ∧
      ("destination", .str p.destinationBackupPath) ∈ c.publicPayload
  | .filesystemCreate plan, c => ∃ p, plan = some p ∧ c.sessionId = p.sessionId ∧
      c.kind = .filesystemRepair ∧ c.capabilityId = p.capabilityId ∧ c.planId = p.id ∧
      c.fingerprint = p.fingerprintSha256 ∧ c.correlationId = p.repairId ∧
      ("target", .str p.targetCanonicalPath) ∈ c.publicPayload ∧
      ("target_fingerprint", .str p.targetFingerprintSha256) ∈ c.publicPayload
  | .storageCreate plan, c => ∃ p, plan = some p ∧ c.sessionId = p.sessionId ∧
      c.kind = .storageOperation ∧ c.capabilityId = p.capability.value ∧ c.planId = p.id ∧
      c.fingerprint = p.fingerprintSha256 ∧ c.correlationId = p.operationId ∧
      ("target", .str p.targetDisk.canonicalPath) ∈ c.publicPayload ∧
      ("target_fingerprint", .str p.targetDisk.fingerprintSha256) ∈ c.publicPayload
  | _, _ => False

def Operated (cfg : Config) (s : State) : Prop :=
  ∀ ref uid, s.operatorUid ref = some uid → uid = cfg.operatorUid

structure Told (cfg : Config) (j : Nat) (r : Request) (v : PublicView) (s : State) : Prop where
  created : r.creates = true → ∃ c, .stored j c ∈ s.history ∧ r.Shows c ∧ v.challengeId = c.id
  operator : ∀ uid, v.operatorUid = some uid → uid = cfg.operatorUid

abbrev tellLogic (cfg : Config) : Logic State Res :=
  ⟨Operated cfg, fun s s' => s.history <:+ s'.history, fun s s' => s.history <:+ s'.history,
    (system cfg).answers⟩

section Requests

variable {cfg : Config} {j : Nat} {s : State} {r : Request}

theorem Told.suffix {v : PublicView} {s' : State} (h : Told cfg j r v s)
    (hs : s.history <:+ s'.history) : Told cfg j r v s' := by
  refine ⟨fun hr => ?_, h.operator⟩
  obtain ⟨c, hc, hshows, hid⟩ := h.created hr
  exact ⟨c, hs.subset hc, hshows, hid⟩

theorem told_public {c : Challenge} (operated : Operated cfg s) (hr : r.creates = false) :
    Told cfg j r (s.publicView c) s :=
  ⟨fun h => by simp [hr] at h, operated c.ref⟩

theorem told_lookup {id : Option String} {Q : Challenge → State → Prop}
    (h : ∀ c s', Operated cfg s' → Q c s') :
    (lookup id).Spec (tellLogic cfg) Q (fun _ _ => True) s := by
  simp only [lookup, lock, bind_eq, spec_bind, spec_ofOption, spec_perform,
    spec_reading, implies_true, and_true]
  exact fun _ _ s' operated _ _ _ c _ => h c s' operated

theorem told_append {entry : Audit.AuditEntry} {note : Bool → Event} {Q : Unit → State → Prop}
    {E : Error → State → Prop}
    (hQ : ∀ s', Operated cfg s' → s.history <:+ s'.history → Q () (s'.note (note true)))
    (hE : ∀ s', Operated cfg s' → E .audit s') :
    (append entry note).Spec (tellLogic cfg) Q E s := by
  simp only [append, awaitAppend, bind_eq, spec_bind, spec_perform]
  intro s' operated grows a _
  cases a with
  | acked => exact ⟨List.suffix_cons _ _, operated, hQ s' operated grows⟩
  | lost =>
    have operated' : Operated cfg (s'.note (note false)) := operated
    exact ⟨List.suffix_cons _ _, operated', hE _ operated'⟩
  | failed => exact hE s' operated

theorem told_draw {Q : Nat × String → State → Prop} (operated : Operated cfg s)
    (h : ∀ n s', Operated cfg s' → Q (n, cfg.uuid4 n) s') :
    (draw cfg j).Spec (tellLogic cfg) Q (fun _ _ => True) s := by
  simp only [draw, bind_eq, pure_eq, spec_bind, spec_reading, spec_modify,
    spec_ret]
  exact ⟨List.suffix_cons _ _, operated, h _ _ operated⟩

theorem told_stored {c : Challenge} {details : Fields} (hr : r.Shows c) :
    (storeAndAuditRequested j c details).Spec (tellLogic cfg)
      (fun _ s' => Told cfg j r (s'.publicView c) s') (fun _ _ => True) s := by
  simp only [storeAndAuditRequested, lock, bind_eq, spec_bind, spec_perform,
    spec_modify]
  intro s' operated _ _ _
  refine ⟨List.suffix_cons _ _, operated, told_append (fun s'' operated' grows => ?_)
    fun _ _ => trivial⟩
  exact ⟨fun _ => ⟨c, List.mem_cons_of_mem _ (grows.subset List.mem_cons_self), hr, rfl⟩,
    operated' c.ref⟩

theorem told_wait {id : Option String} :
    (wait j id).Spec (tellLogic cfg) (Told cfg j (.wait id)) (fun _ _ => True) s := by
  simp only [wait, bind_eq, spec_bind]
  refine told_lookup fun c s' operated' => ?_
  simp only [spec_reading]
  split
  · exact ⟨List.suffix_cons _ _, operated', trivial⟩
  · simp only [awaitEvent, spec_bind, spec_perform]
    intro t operated'' _ a _
    cases a with
    | timeout => exact ⟨List.suffix_cons _ _, operated'', trivial⟩
    | set => exact ⟨List.suffix_cons _ _, operated'', told_public (s := t.note _) operated'' rfl⟩

theorem told_decide {id confirmation : Option String} {d : Decision} (hr : r.creates = false) :
    (decide j id confirmation d cfg.operatorUid).Spec (tellLogic cfg) (Told cfg j r)
      (fun _ _ => True) s := by
  simp only [decide, bind_eq, spec_bind]
  refine told_lookup fun c _ operated => ?_
  simp only [spec_state, spec_require, spec_modify, spec_handle, implies_true,
    and_true]
  refine fun _ _ => ⟨List.suffix_cons _ _, operated, ?_⟩
  refine told_append (fun t operated' _ => ?_) fun t operated' =>
    ⟨List.suffix_cons _ _, operated', trivial⟩
  have decided : ∀ t : State, Operated cfg t → Operated cfg (t.decide j c.ref d cfg.operatorUid) := by
    intro t operated' ref uid huid
    simp only [State.decide, State.note, Function.update_apply] at huid
    split at huid
    · exact (Option.some.inj huid).symm
    · exact operated' ref uid huid
  exact ⟨List.suffix_cons _ _, decided _ operated', told_public (decided _ operated') hr⟩

theorem told_dispatch (t : Request × Int) (operated : Operated cfg s) :
    (dispatch cfg j t.1 t.2).Spec (tellLogic cfg) (Told cfg j t.1) (fun _ _ => True) s := by
  obtain ⟨r, uid⟩ := t
  simp only [dispatch, bind_eq, spec_bind, spec_modify]
  have operated' : Operated cfg (s.note (.received j r uid)) := operated
  refine ⟨List.suffix_cons _ _, operated', ?_⟩
  cases r with
  | create plan sessionId =>
    simp only [requirePeer, createBackup, bind_eq, spec_bind, spec_require,
      spec_ofOption, spec_reading, implies_true, and_true]
    rintro - plan rfl sessionId rfl -
    refine told_draw operated' fun n s' _ => ?_
    refine told_stored ?_
    exact ⟨plan, rfl, rfl, rfl, rfl, rfl, rfl, rfl, by simp, by simp⟩
  | filesystemCreate plan =>
    simp only [requirePeer, createFilesystem, bind_eq, spec_bind, spec_require,
      spec_ofOption, spec_reading, implies_true, and_true]
    rintro - plan rfl
    refine told_draw operated' fun n s' _ => ?_
    refine told_stored ?_
    exact ⟨plan, rfl, rfl, rfl, rfl, rfl, rfl, rfl, by simp, by simp⟩
  | storageCreate plan =>
    simp only [requirePeer, createStorage, bind_eq, spec_bind, spec_require,
      spec_ofOption, spec_reading, implies_true, and_true]
    rintro - plan rfl
    refine told_draw operated' fun n s' _ => ?_
    refine told_stored ?_
    exact ⟨plan, rfl, rfl, rfl, rfl, rfl, rfl, rfl, by simp, by simp⟩
  | wait id =>
    simp only [requirePeer, spec_bind, spec_require, implies_true, and_true]
    exact fun _ => told_wait
  | get id =>
    simp only [requirePeer, get, bind_eq, spec_bind, spec_require, implies_true,
      and_true]
    exact fun _ => told_lookup fun c _ operated'' => told_public operated'' rfl
  | approve id confirmation =>
    simp only [requirePeer, spec_bind, spec_require, implies_true, and_true,
      decide_eq_true_eq]
    rintro rfl
    exact told_decide rfl
  | deny id confirmation =>
    simp only [requirePeer, spec_bind, spec_require, implies_true, and_true,
      decide_eq_true_eq]
    rintro rfl
    exact told_decide rfl
  | unsupported => trivial

end Requests

def tellContract (cfg : Config) : Contract (system cfg) where
  inv := Operated cfg
  rely _ s s' := s.history <:+ s'.history
  guar _ s s' := s.history <:+ s'.history
  fresh _ _ := True
  post j t := Told cfg j t.1
  postE _ _ _ _ := True
  refl _ _ := List.suffix_refl _
  trans _ _ _ _ := List.IsSuffix.trans
  guar_rely _ _ _ _ _ h := h
  fresh_rely _ _ _ _ _ := trivial
  post_rely _ _ _ _ _ := Told.suffix
  postE_rely _ _ _ _ _ _ _ := trivial
  world _ _ operated _ := ⟨operated, fun _ => List.suffix_refl _⟩
  handler _ t _ operated _ _ := told_dispatch t operated

variable {cfg : Config} {now : DateTime} {p : Requests} {j : Nat} {t : Request × Int}
  {v : PublicView}

theorem told_of_ended (reach : (system cfg).Reachable (State.start now) p)
    (hj : p.ended j = some (t, some (.ok v))) : Told cfg j t.1 v p.state := by
  have holds := (tellContract cfg).sound (s := State.start now) (by simp [tellContract, Operated,
    State.start]) (fun _ => trivial) reach
  exact (holds.tasks j t _ (Pool.task_of_ended hj)).2

theorem stored_of_ended (reach : (system cfg).Reachable (State.start now) p)
    (hj : p.ended j = some (t, some (.ok v))) (hr : t.1.creates = true) :
    ∃ c, .stored j c ∈ p.state.history ∧ t.1.Shows c ∧ v.challengeId = c.id ∧
      c.id = cfg.uuid4 c.ref := by
  obtain ⟨c, hc, hshows, hid⟩ := (told_of_ended reach hj).created hr
  obtain ⟨past, hs⟩ := exists_suffix_of_mem hc
  exact ⟨c, hc, hshows, hid, ((holds_of_reachable reach).inv.causal.at hs).1⟩

theorem created_once (inj : Function.Injective cfg.uuid4)
    (reach : (system cfg).Reachable (State.start now) p) {i : Nat} {u : Request × Int}
    {w : PublicView} (hj : p.ended j = some (t, some (.ok v))) (ht : t.1.creates = true)
    (hi : p.ended i = some (u, some (.ok w))) (hu : u.1.creates = true)
    (hid : v.challengeId = w.challengeId) : j = i := by
  have hc := (holds_of_reachable reach).inv.causal
  obtain ⟨c, hstored, -, hv, hcid⟩ := stored_of_ended reach hj ht
  obtain ⟨c', hstored', -, hw, hcid'⟩ := stored_of_ended reach hi hu
  have href : c.ref = c'.ref := inj (by rw [← hcid, ← hcid', ← hv, hid, hw])
  exact drawn_inj hc (drawn_of_stored hc hstored) (href ▸ drawn_of_stored hc hstored')

theorem approval_of_ended (reach : (system cfg).Reachable (State.start now) p) {id : String}
    {peer : Int} (hj : p.ended j = some ((.wait (some id), peer), some (.ok v)))
    (hv : v.decision = .approved) :
    ∃ c u, Stored p.state.history c ∧ c.id = id ∧ DecidedBy cfg u .approved c p.state.history := by
  have holds := holds_of_reachable reach
  obtain ⟨-, c, hst, hreq, -, -, hret⟩ := (holds.tasks j _ _ (Pool.task_of_ended hj)).2
  rw [hv] at hret
  obtain ⟨h, hs⟩ := exists_suffix_of_mem hret
  have older : h <:+ p.state.history := (List.suffix_cons _ _).trans hs
  obtain ⟨hvalue, -⟩ := holds.inv.causal.at hs
  obtain ⟨u, uid, past, hdec, -⟩ :=
    exists_decided List.nil_suffix (by simp [valueOf]) hvalue (by simp)
  obtain ⟨-, c', hst', href, hby⟩ :=
    decidedBy_of_decided holds.inv.causal (hdec.trans older)
  obtain rfl : c' = c := stored_unique holds.inv.causal hst' hst href
  exact ⟨c', u, hst', (Option.some.inj (Request.wait.inj hreq)).symm, hby⟩

end Ares.Consent
