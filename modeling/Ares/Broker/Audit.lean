import Ares.Broker.Grants

/-! The ledger around a write: no write without the acknowledged records that announce it, and one
acknowledged record or one entry of the emergency journal after it. -/

namespace Ares.Broker

open Coop Audit Storage

/-- The authorization of the operation of `plan` was announced and acknowledged. -/
def AuthorizationAnnounced (plan : StorageOperationPlan) (h : List Event) : Prop :=
  ∃ t plan', plan'.operationId = plan.operationId ∧ .audited t (authorizationIntent plan') true ∈ h

theorem announced_of_executing {cfg : Config} {h : List Event} {t : Nat}
    {plan : StorageOperationPlan} {g : StorageAuthorizationGrant} (hc : Always (Causal cfg) h)
    (hx : Executing t plan g h) : AuthorizationAnnounced plan h := by
  obtain ⟨time, hacc⟩ := hx.accepted
  obtain ⟨past, hs⟩ := exists_suffix_of_mem hacc
  obtain ⟨-, u, plan', uid, past', hgrant, -, -, hop, -⟩ := grantedFor_of_accepted hc hs
  have hpast' : (.granted u g :: past') <:+ h := hgrant.trans ((List.suffix_cons _ _).trans hs)
  obtain ⟨-, plan'', hconsent⟩ := hc.at hpast'
  obtain ⟨n, uid', now, -, hg⟩ := hconsent.body
  have hop' : plan''.operationId = plan.operationId := by
    obtain ⟨hmatch, -⟩ := hc.at hs
    simp only [grantMatches, Bool.and_eq_true, decide_eq_true_eq] at hmatch
    rw [← hmatch.1.1.1.1.2, hg]
    rfl
  exact ⟨u, plan'', hop', ((List.suffix_cons _ _).trans hpast').subset hconsent.intent⟩

/-- Audit before and after a write.  Every run of the mutating command has, before it, the
acknowledged announcements of its authorization, of its transaction and of the write itself, the
last two by the same request; and a request that ran the command and has ended, where it was not
cancelled while it waited for the ledger to append the closing record, has left after it exactly one
acknowledged record of completion or failure or one entry of the emergency journal. -/
theorem audit_around_write (cfg : Config) (now : DateTime) (dev : Devices) (p : Requests)
    (reach : (system cfg).Reachable (State.start now dev) p) :
    (∀ t plan path script past, (.wrote t plan path script :: past) <:+ p.state.history →
      AuthorizationAnnounced plan past ∧
      (∃ g, .audited t (transactionIntent plan g) true ∈ past) ∧
      .audited t (startedEntry plan) true ∈ past) ∧
    (∀ j t q, p.tasks[j]? = some (t, q) → q.Ended → ¬Cut j p.state.history →
      ∀ plan path script past, (.wrote j plan path script :: past) <:+ p.state.history →
      ∃ e, closings j p.state.history = [e] ∧ e ∉ past ∧
        e.operationId = some plan.operationId) := by
  have holds := holds_of_reachable reach
  have hc := holds.inv.causal
  refine ⟨fun t plan path script past hs => ?_, fun j t q hj hend huncut plan path script past hs => ?_⟩
  · obtain ⟨-, hw, -⟩ := hc.at hs
    obtain ⟨g, hx⟩ := hw.executing
    have hpast : past <:+ p.state.history := (List.suffix_cons _ _).trans hs
    exact ⟨announced_of_executing (hc.suffix hpast) hx, ⟨g, hx.intent⟩, hw.started⟩
  · have hsettled : Settled j p.state := by
      have hspec := (holds.tasks j t q hj).2
      cases q with
      | ret a => exact hspec
      | raise e => exact hspec
      | get | put | call => exact hend.elim
    obtain ⟨e, hone, hop⟩ :=
      (hsettled.resolve_left huncut) plan path script (hs.subset List.mem_cons_self)
    refine ⟨e, hone, fun hmem => ?_, hop⟩
    -- nothing had closed the operation when the command was run
    obtain ⟨-, -, hopen⟩ := hc.at hs
    obtain ⟨hown, hclosing⟩ := List.mem_filter.mp (hone ▸ List.mem_singleton_self e)
    have htask : e.task = j := by
      have := (List.mem_filter.mp hown).2
      simpa using this
    have hmem' : e ∈ closings j past :=
      List.mem_filter.mpr ⟨htask ▸ mem_own hmem, hclosing⟩
    rw [hopen] at hmem'
    exact List.not_mem_nil hmem'

/-- The end of the sample run, with `outcome` as the answer to the append of the completion. -/
def sampleEnding (outcome : AwaitedAppend) : List (Move Res (Request × Int) (DateTime × Devices)) :=
  List.replicate 7 (.resume 1 (sampleAnswer sampleIdentity [samplePartition])) ++
    [.resume 1 fun
      | .append _ => outcome
      | o => sampleAnswer sampleIdentity [samplePartition] o] ++
    if outcome = .acked then [] else [.resume 1 (sampleAnswer sampleIdentity [samplePartition])]

def sampleEnd (outcome : AwaitedAppend) : Requests :=
  (system sampleConfig).play (System.initial (State.start 0 sampleDevices))
    (sampleMoves sampleIdentity ++ sampleEnding outcome)

theorem sampleEnd_reachable (outcome : AwaitedAppend)
    (h : (system sampleConfig).playable (System.initial (State.start 0 sampleDevices))
      (sampleMoves sampleIdentity ++ sampleEnding outcome) = true) :
    (system sampleConfig).Reachable (State.start 0 sampleDevices) (sampleEnd outcome) :=
  ⟨_, System.run_of_playable (fun _ _ => trivial) (fun _ _ _ => trivial) (fun _ _ => trivial) h⟩

def Event.uninterrupted : Event → Bool
  | .interrupted _ _ _ => false
  | _ => true

theorem not_cut_of_all {j : Nat} {h : List Event} (hall : h.all Event.uninterrupted = true) :
    ¬Cut j h := by
  rintro ⟨entry, written, -, hmem⟩
  exact absurd (List.all_eq_true.mp hall _ hmem) Bool.false_ne_true

set_option maxRecDepth 20000 in
theorem audit_around_write_run : (∃ t o, (sampleEnd .acked).tasks[1]? = some (t, .ret o)) ∧
    (∃ plan path script past,
      (.wrote 1 plan path script :: past) <:+ (sampleEnd .acked).state.history ∧
      AuthorizationAnnounced plan past) ∧
    ∀ plan path script past,
      (.wrote 1 plan path script :: past) <:+ (sampleEnd .acked).state.history →
      ∃ e, closings 1 (sampleEnd .acked).state.history = [e] ∧ e ∉ past ∧
        e.operationId = some plan.operationId := by
  have reach := sampleEnd_reachable .acked (by decide +kernel)
  obtain ⟨before, after⟩ := audit_around_write sampleConfig 0 sampleDevices _ reach
  have ended : ∃ t o, (sampleEnd .acked).tasks[1]? = some (t, .ret o) := ⟨_, _, rfl⟩
  obtain ⟨plan, path, script, past, hs⟩ : ∃ plan path script past,
      (.wrote 1 plan path script :: past) <:+ (sampleEnd .acked).state.history :=
    ⟨_, _, _, _, [_, _], rfl⟩
  refine ⟨ended, ⟨plan, path, script, past, hs, (before 1 plan path script past hs).1⟩, ?_⟩
  obtain ⟨t, o, ho⟩ := ended
  exact after 1 t _ ho trivial (not_cut_of_all (by decide +kernel))

/-- The records and entries that close an operation, acknowledged or not. -/
def Event.closingRecord : Event → Bool
  | .audited _ entry _ => Closes entry
  | .emergency _ _ _ => true
  | _ => false

set_option maxRecDepth 20000 in
/-- When the acknowledgement of the completion is lost, the ledger holds the record and the emergency
journal holds its entry. -/
theorem lost_acknowledgement_closes_twice :
    ¬∀ (cfg : Config) (now : DateTime) (dev : Devices) (p : Requests),
      (system cfg).Reachable (State.start now dev) p →
      ∀ j t q, p.tasks[j]? = some (t, q) → q.Ended → ∀ plan path script,
        .wrote j plan path script ∈ p.state.history →
        ((own j p.state.history).filter Event.closingRecord).length = 1 := by
  intro claim
  have reach := sampleEnd_reachable .lost (by decide +kernel)
  obtain ⟨t, e, ho⟩ : ∃ t e, (sampleEnd .lost).tasks[1]? = some (t, .raise e) := ⟨_, _, rfl⟩
  obtain ⟨plan, path, script, past, hs⟩ : ∃ plan path script past,
      (.wrote 1 plan path script :: past) <:+ (sampleEnd .lost).state.history :=
    ⟨_, _, _, _, [_, _, _], rfl⟩
  have hone := claim _ _ _ _ reach 1 t _ ho trivial plan path script
    (hs.subset List.mem_cons_self)
  have htwo : ((own 1 (sampleEnd .lost).state.history).filter Event.closingRecord).length = 2 := by
    decide +kernel
  omega

end Ares.Broker
