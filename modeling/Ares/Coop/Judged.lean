import Ares.Coop.Journal

/-! Systems that judge every event.  Where each write of a task adds an event that passes a test of
the events before it, or leaves the history alone, every event of every run passes, whatever the
environment answers. -/

namespace Coop

variable {σ η Op : Type} {Res : Op → Type} {ε α β τ κ : Type}
  (history : σ → List η) (P : η → List η → Prop) (answers : σ → (o : Op) → Res o → Prop)

abbrev judging : Logic σ Res where
  inv s := Always P (history s)
  rely _ _ := True
  guar _ _ := True
  answers := answers

abbrev Judged (p : Proc σ Res ε α) : Prop := p.Keeps (judging history P answers) fun _ => True

variable {history P answers}

theorem judged_of_quiet {p : Proc σ Res ε α} (quiet : p.Quiet) : Judged history P answers p :=
  quiet.keeps fun _ _ _ _ => trivial

theorem judged_modify {g : σ → σ} {e : σ → η} (heq : ∀ s, history (g s) = e s :: history s)
    (he : ∀ s, P (e s) (history s)) :
    Judged history P answers (Proc.modify g : Proc σ Res ε Unit) := by
  refine Proc.keeps_modify fun s hi _ => ⟨trivial, ?_, trivial⟩
  show Always P (history (g s))
  rw [heq s]
  exact ⟨he s, hi⟩

def judgedContract (S : System σ Res ε α τ κ) (history : σ → List η) (P : η → List η → Prop)
    (world : ∀ s w, S.moves s w → history (S.world w s) = history s)
    (handler : ∀ j t, Judged history P S.answers (S.handler j t)) : Contract S where
  inv s := Always P (history s)
  rely _ _ _ := True
  guar _ _ _ := True
  fresh _ _ := True
  post _ _ _ _ := True
  postE _ _ _ _ := True
  refl _ _ := trivial
  trans _ _ _ _ _ _ := trivial
  guar_rely _ _ _ _ _ _ := trivial
  fresh_rely _ _ _ _ _ := trivial
  post_rely _ _ _ _ _ _ _ := trivial
  postE_rely _ _ _ _ _ _ _ := trivial
  world s w hi hw := ⟨by rw [world s w hw]; exact hi, fun _ => trivial⟩
  handler j t s hi _ _ := (handler j t s hi trivial).mono (fun _ _ _ => trivial) fun _ _ _ => trivial

theorem always_of_judged {S : System σ Res ε α τ κ}
    (world : ∀ s w, S.moves s w → history (S.world w s) = history s)
    (handler : ∀ j t, Judged history P S.answers (S.handler j t)) {s : σ}
    (hs : Always P (history s)) {p : Pool σ Res ε α τ} (reach : S.Reachable s p) :
    Always P (history p.state) :=
  ((judgedContract S history P world handler).sound hs (fun _ => trivial) reach).inv

end Coop
