import Ares.Broker.Grants
import Ares.Coop.Judged

/-! Every event of the storage broker passes a test that the events of its consents pass, where the test
asks nothing of the other events. -/

namespace Ares.Broker

open Coop Audit Storage

def Event.Plain : Event → Prop
  | .challenged _ _ _ | .answered _ _ _ _ => False
  | _ => True

section Judged

variable {V : Event → List Event → Prop} {answers : State → (o : Op) → Res o → Prop}

theorem judged_note (plain : ∀ e past, e.Plain → V e past) {e : Event} (he : e.Plain) :
    Judged State.history V answers (Proc.modify (State.note e) : Task Unit) :=
  judged_modify (e := fun _ => e) (fun _ => rfl) fun _ => plain _ _ he

theorem judged_append (plain : ∀ e past, e.Plain → V e past) (j : Nat) (entry : AuditEntry) :
    Judged State.history V answers (append j entry) := by
  refine Proc.Keeps.bind (judged_of_quiet quiet_perform) fun r => ?_
  cases r with
  | acked => exact judged_note plain trivial
  | lost => exact Proc.Keeps.bind (judged_note plain trivial) fun _ => keeps_raise _
  | failed => exact keeps_raise _
  | cancelled written => exact Proc.Keeps.bind (judged_note plain trivial) fun _ => keeps_raise _

theorem judged_emergency (plain : ∀ e past, e.Plain → V e past) (j : Nat)
    (plan : StorageOperationPlan) (event : String) :
    Judged State.history V answers (emergency j plan event) :=
  Proc.Keeps.bind (judged_note plain trivial) fun _ => judged_of_quiet quiet_attempt

theorem judged_draw (plain : ∀ e past, e.Plain → V e past) (cfg : Config) (j : Nat) :
    Judged State.history V answers (draw cfg j) :=
  Proc.Keeps.bind (judged_of_quiet quiet_reading) fun _ =>
    Proc.Keeps.bind (judged_modify (e := fun s => .drawn j s.drawn) (fun _ => rfl)
      fun _ => plain _ _ trivial) fun _ => keeps_ret _

theorem judged_revalidate (plain : ∀ e past, e.Plain → V e past) (cfg : Config) (j : Nat)
    (expected : StorageDeviceIdentity) :
    Judged State.history V answers (revalidate cfg j expected) := by
  refine Proc.Keeps.bind (judged_of_quiet quiet_attempt) fun _ =>
    Proc.Keeps.bind (judged_of_quiet quiet_state) fun s => ?_
  cases cfg.identity.revalidate cfg.lib s.devices expected with
  | ok fresh =>
    exact Proc.Keeps.bind (judged_note plain trivial) fun _ =>
      Proc.Keeps.bind (judged_of_quiet quiet_attempt) fun _ => keeps_ret _
  | error e =>
    exact Proc.Keeps.bind (judged_of_quiet quiet_attempt) fun _ =>
      judged_of_quiet (quiet_ofIdentity _)

theorem judged_dryRun (plain : ∀ e past, e.Plain → V e past) (cfg : Config) (j : Nat)
    (plan : StorageOperationPlan) : Judged State.history V answers (dryRun cfg j plan) :=
  Proc.Keeps.bind (judged_revalidate plain cfg j _) fun _ =>
    Proc.Keeps.bind (judged_of_quiet quiet_ofExcept) fun _ =>
      Proc.Keeps.bind (judged_of_quiet (quiet_attemptTool _ _ _)) fun _ => keeps_ret _

theorem judged_checkpoint (plain : ∀ e past, e.Plain → V e past) (cfg : Config) (j : Nat)
    (plan : StorageOperationPlan) : Judged State.history V answers (checkpoint cfg j plan) := by
  have create : ∀ id, Judged State.history V answers (createCheckpoint cfg j plan id) := fun id =>
    Proc.Keeps.bind (judged_revalidate plain cfg j _) fun _ =>
      Proc.Keeps.bind (judged_revalidate plain cfg j _) fun _ =>
        Proc.Keeps.bind (judged_of_quiet quiet_attempt) fun _ =>
          Proc.Keeps.bind (judged_of_quiet quiet_reading) fun _ => keeps_ret _
  exact Proc.Keeps.bind (judged_of_quiet (quiet_validatePreflightPlan cfg plan false)) fun _ =>
    Proc.Keeps.bind (judged_draw plain cfg j) fun id => Proc.Keeps.bind (create id) fun _ =>
      Proc.Keeps.bind (judged_of_quiet quiet_reading) fun _ =>
        Proc.Keeps.bind (judged_append plain j _) fun _ => keeps_ret _

theorem judged_stage (plain : ∀ e past, e.Plain → V e past) (j : Nat) (plan : StorageOperationPlan)
    (name : String) (payload : Data.Fields) :
    Judged State.history V answers (stage j plan name payload) := by
  refine Proc.Keeps.bind (judged_of_quiet quiet_reading) fun lost => ?_
  cases lost with
  | true => exact judged_append plain j _
  | false =>
    refine Proc.Keeps.bind (Proc.Keeps.handle (judged_of_quiet quiet_attempt) fun e => ?_)
      fun _ => judged_append plain j _
    cases e with
    | os | timeout | runtime =>
      exact judged_modify (e := fun _ => .observerLost j) (fun _ => rfl) fun _ => plain _ _ trivial
    | permission | tool | audit | value | cancelled => exact keeps_raise _

theorem judged_applyOperation (plain : ∀ e past, e.Plain → V e past) (j : Nat)
    (plan : StorageOperationPlan) : Judged State.history V answers (applyOperation j plan) := by
  have write : Judged State.history V answers (writeTable j plan) :=
    Proc.Keeps.bind (judged_of_quiet quiet_ofExcept) fun _ =>
      Proc.Keeps.bind (judged_note plain trivial) fun _ => judged_of_quiet (quiet_attemptTool _ _ _)
  rw [applyOperation]
  cases plan.operation with
  | create | delete => exact write
  | resize | inspect | move => exact keeps_raise _

theorem judged_toolsExecute (plain : ∀ e past, e.Plain → V e past) (cfg : Config) (j : Nat)
    (plan : StorageOperationPlan) :
    Judged State.history V answers (toolsExecute cfg j plan (stage j plan)) :=
  Proc.Keeps.bind (judged_of_quiet quiet_state) fun _ =>
    Proc.Keeps.bind (judged_of_quiet quiet_require) fun _ =>
      Proc.Keeps.bind (judged_note plain trivial) fun _ =>
        Proc.Keeps.bind (judged_revalidate plain cfg j _) fun _ =>
          Proc.Keeps.bind (judged_of_quiet (quiet_inspect cfg _)) fun _ =>
            Proc.Keeps.bind (judged_of_quiet quiet_require) fun _ =>
              Proc.Keeps.bind (judged_stage plain j plan _ _) fun _ =>
                Proc.Keeps.bind (judged_applyOperation plain j plan) fun _ =>
                  Proc.Keeps.bind (judged_of_quiet quiet_require) fun _ =>
                    Proc.Keeps.bind (judged_stage plain j plan _ _) fun _ =>
                      Proc.Keeps.bind (judged_of_quiet (quiet_rereadDevice _)) fun _ =>
                        Proc.Keeps.bind (judged_of_quiet (quiet_verifyTable cfg plan)) fun _ =>
                          keeps_ret _

theorem judged_execute (plain : ∀ e past, e.Plain → V e past) (cfg : Config) (j : Nat)
    (plan : StorageOperationPlan) (g : StorageAuthorizationGrant) :
    Judged State.history V answers (execute cfg j plan g) := by
  have failure : ∀ e, Judged State.history V answers (auditFailure j plan e) := by
    intro e
    refine Proc.Keeps.handle (judged_append plain j _) fun e => ?_
    cases e with
    | audit => exact judged_emergency plain j plan _
    | permission | tool | timeout | os | runtime | value | cancelled => exact keeps_raise _
  have completed : ∀ outcome, Judged State.history V answers (auditCompleted j plan outcome) := by
    intro outcome
    refine Proc.Keeps.bind (judged_of_quiet quiet_reading) fun _ =>
      Proc.Keeps.handle (judged_append plain j _) fun e => ?_
    cases e with
    | audit =>
      exact Proc.Keeps.bind (judged_emergency plain j plan _) fun _ => keeps_raise _
    | permission | tool | timeout | os | runtime | value | cancelled => exact keeps_raise _
  exact Proc.Keeps.bind (judged_of_quiet quiet_attempt) fun _ =>
    Proc.Keeps.bind (judged_of_quiet quiet_state) fun s =>
      Proc.Keeps.bind (judged_modify (e := fun s => .popped j g.id (s.grants g.id)) (fun _ => rfl)
        fun _ => plain _ _ trivial) fun _ =>
        Proc.Keeps.bind (judged_of_quiet quiet_require) fun _ =>
          Proc.Keeps.bind (judged_note plain trivial) fun _ =>
            Proc.Keeps.bind (judged_of_quiet (quiet_validatePreflightPlan cfg plan true)) fun _ =>
              Proc.Keeps.bind (judged_append plain j _) fun _ =>
                Proc.Keeps.bind (judged_note plain trivial) fun _ =>
                  Proc.Keeps.bind (Proc.Keeps.handle (judged_toolsExecute plain cfg j plan)
                    fun e => Proc.Keeps.bind (failure e) fun _ => keeps_raise _) fun outcome =>
                    Proc.Keeps.bind (completed outcome) fun _ => keeps_ret _

theorem judged_authorize (plain : ∀ e past, e.Plain → V e past) (cfg : Config) (j : Nat)
    (plan : StorageOperationPlan) (hconsent : Judged State.history V answers (consent j plan)) :
    Judged State.history V answers (authorize cfg j plan) :=
  Proc.Keeps.bind (judged_of_quiet (quiet_validatePreflightPlan cfg plan true)) fun _ =>
    Proc.Keeps.bind (judged_append plain j _) fun _ => Proc.Keeps.bind hconsent fun _ =>
      Proc.Keeps.bind (judged_of_quiet quiet_require) fun _ =>
        Proc.Keeps.bind (judged_of_quiet quiet_ofOption) fun _ =>
          Proc.Keeps.bind (judged_of_quiet quiet_require) fun _ =>
            Proc.Keeps.bind (judged_of_quiet (quiet_validatePreflightPlan cfg plan true)) fun _ =>
              Proc.Keeps.bind (judged_draw plain cfg j) fun _ =>
                Proc.Keeps.bind (judged_of_quiet quiet_reading) fun _ =>
                  Proc.Keeps.bind (judged_of_quiet quiet_require) fun _ =>
                    Proc.Keeps.bind (judged_of_quiet quiet_attempt) fun _ =>
                      Proc.Keeps.bind (judged_modify (e := fun _ => .granted j _) (fun _ => rfl)
                        fun _ => plain _ _ trivial) fun _ =>
                        Proc.Keeps.bind (judged_append plain j _) fun _ => keeps_ret _

theorem judged_dispatch (plain : ∀ e past, e.Plain → V e past) (cfg : Config) (j : Nat)
    (t : Request × Int) (hconsent : ∀ plan, Judged State.history V answers (consent j plan)) :
    Judged State.history V answers (dispatch cfg j t.1 t.2) := by
  obtain ⟨r, uid⟩ := t
  refine Proc.Keeps.bind (judged_note plain trivial) fun _ =>
    Proc.Keeps.bind (judged_of_quiet quiet_require) fun _ => ?_
  cases r with
  | inspect target =>
    exact Proc.Keeps.bind (judged_of_quiet quiet_ofOption) fun _ =>
      Proc.Keeps.bind (judged_of_quiet (quiet_inspect cfg _)) fun _ => keeps_ret _
  | dryRun plan =>
    exact Proc.Keeps.bind (judged_of_quiet quiet_ofOption) fun plan =>
      Proc.Keeps.bind (judged_of_quiet (quiet_validatePreflightPlan cfg plan false)) fun _ =>
        Proc.Keeps.bind (judged_dryRun plain cfg j plan) fun _ => keeps_ret _
  | checkpoint plan =>
    exact Proc.Keeps.bind (judged_of_quiet quiet_ofOption) fun plan =>
      judged_checkpoint plain cfg j plan
  | authorize plan =>
    exact Proc.Keeps.bind (judged_of_quiet quiet_ofOption) fun plan =>
      judged_authorize plain cfg j plan (hconsent plan)
  | execute plan grant =>
    exact Proc.Keeps.bind (judged_of_quiet quiet_ofOption) fun plan =>
      Proc.Keeps.bind (judged_of_quiet quiet_ofOption) fun g =>
        judged_execute plain cfg j plan g
  | verify plan =>
    exact Proc.Keeps.bind (judged_of_quiet quiet_ofOption) fun plan =>
      Proc.Keeps.bind (judged_of_quiet (quiet_validatePostwritePlan cfg plan)) fun _ =>
        Proc.Keeps.bind (judged_of_quiet (quiet_verifyTable cfg plan)) fun _ =>
          Proc.Keeps.bind (judged_append plain j _) fun _ => keeps_ret _
  | rejected => exact keeps_raise _

end Judged

end Ares.Broker
