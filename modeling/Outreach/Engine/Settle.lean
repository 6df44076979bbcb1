import Outreach.Engine.Run

/-! Letting forwarded runs take their course once the work that started them is over. -/
namespace Outreach

structure Backlog (σ : Type) where
  take : σ → Option (ForwardedRun × σ)

/-- Runs what has been forwarded, first come first, until nothing waits; none when that does not end
within `rounds` runs. -/
def settle {σ : Type} (settings : EngineSettings) (limit : Nat) (h : Program.Handler σ) (b : Backlog σ) :
    Nat → σ → Option σ
  | 0, _ => none
  | rounds + 1, s =>
    match b.take s with
    | none => some s
    | some (r, s) => do
      let ((), s) ← (r.execute settings limit).run h s
      settle settings limit h b rounds s

def Program.runSettled {σ α : Type} (p : Program α) (settings : EngineSettings) (limit : Nat)
    (h : Program.Handler σ) (b : Backlog σ) (s : σ) : Option (α × σ) := do
  let (a, s) ← p.run h s
  let s ← settle settings limit h b limit s
  return (a, s)

end Outreach
