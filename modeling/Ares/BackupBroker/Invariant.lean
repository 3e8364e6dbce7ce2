import Ares.Coop.Tokens
import Ares.Backups.Quiet
import Ares.BackupBroker.Dispatch

/-! What every step of the backup broker leaves in its history, under every interleaving of its
requests and every answer of its environment. -/

namespace Ares.BackupBroker

open Coop Data Audit Backups

def tokens : Tokens Event AuthorizationGrant String where
  id g := g.id
  grant := .granted
  pop := .popped
  draw := .drawn
  kind
    | .granted _ g => .granted g
    | .popped _ id stored => .popped id stored
    | .drawn _ n => .drawn n
    | _ => .other
  kind_grant _ _ := rfl
  kind_pop _ _ _ := rfl
  kind_draw _ _ := rfl
  event e := by cases e <;> simp
  drawer h := (Event.drawn.inj h).1

/-- What `revalidate_plan` has established when it accepts a plan. -/
structure Valid (cfg : Config) (plan : BackupPlan) (time : DateTime) : Prop where
  unexpired : time < plan.expiresAt
  fingerprint : plan.fingerprintSha256 = cfg.lib.planSha256 plan.toPlanPayload

/-- The consent that stands behind a grant. -/
structure Consented (cfg : Config) (t : Nat) (plan : BackupPlan) (g : AuthorizationGrant)
    (h : List Event) : Prop where
  challenge : .challenged t plan g.sessionId g.challengeId ∈ h
  answer : .answered t g.challengeId (some "approved") ∈ h
  valid : ∃ time, .revalidated t plan time ∈ h
  body : ∃ n now, .drawn t n ∈ h ∧ g = grantFor plan g.sessionId (cfg.uuid4 n) g.challengeId now

/-- What a creation has found when it calls `tools.create_backup`. -/
structure Checks where
  grant : AuthorizationGrant
  uid : Int
  taken : DateTime
  time : DateTime

/-- The events of a creation up to that call. -/
def Checks.events (c : Checks) (t : Nat) (plan : BackupPlan) : List Event :=
  [.audited t (executionIntent plan c.grant.sessionId) true,
    .revalidated t plan c.time,
    .accepted t plan c.grant c.taken,
    .popped t c.grant.id (some c.grant),
    .received t (.create (some plan) (some c.grant)) c.uid]

def Causal (cfg : Config) : Event → List Event → Prop
  | .received t _ _, past => own t past = []
  | .drawn _ n, past => ∀ t' n', .drawn t' n' ∈ past → n' < n
  | .revalidated _ plan time, _ => Valid cfg plan time
  | .granted t g, past => (∀ g', .granted t g' ∉ past) ∧ ∃ plan, Consented cfg t plan g past
  | .popped _ id stored, past => stored = tokens.table past id
  | .accepted t plan g time, past => grantMatches plan g (some g) time = true ∧
      ∃ uid, own t past = [.popped t g.id (some g), .received t (.create (some plan) (some g)) uid]
  | .invoked t plan, past => ∃ c : Checks, own t past = c.events t plan
  | .started t plan time, past => Valid cfg plan time ∧ .invoked t plan ∈ past
  | _, _ => True

abbrev Inv (cfg : Config) (s : State) : Prop :=
  tokens.Tracks (Causal cfg) s.history s.grants s.drawn

abbrev Rely := Kept State.history

abbrev Guar := Noted State.history

theorem tokens_oneUse (cfg : Config) : tokens.OneUse cfg.uuid4 (Causal cfg) where
  popped hc := hc
  drawn hc := hc
  granted := by
    rintro t g past ⟨hfirst, plan, hconsent⟩
    obtain ⟨n, now, hn, hg⟩ := hconsent.body
    exact ⟨hfirst, n, hn, congrArg (·.id) hg⟩

end Ares.BackupBroker
