import AsmScope.Engine.State
/-! # Scripted interference

What other threads do during runs, written down beforehand: a script names an executable and a
moment, and holds the steps that are taken when a process of that executable first reaches the
moment. Steps may start runs of their own, whose moments play further scripts. Every script is
played once, so the number of scripts bounds how deep this goes. -/

namespace AsmScope

/-- Steps to be taken at a moment of a run. -/
structure Script (σ : Type) where
  /-- The executable whose process reaches the moment. -/
  executable : String
  /-- The moment. -/
  moment : Moment
  /-- The steps. -/
  steps : List σ
  deriving Repr

namespace Script

variable {α σ : Type}

/-- The first script for a moment, and the scripts without it. -/
def take? (executable : String) (moment : Moment) :
    List (Script σ) → Option (List σ × List (Script σ))
  | [] => none
  | script :: rest =>
    if script.executable = executable ∧ script.moment = moment then some (script.steps, rest)
    else (take? executable moment rest).map fun found => (found.1, script :: found.2)

/-- What is taken is the steps of one script, and nothing is added to the others. -/
theorem subset_of_take? {executable : String} {moment : Moment} {scripts rest : List (Script σ)}
    {steps : List σ} (h : take? executable moment scripts = some (steps, rest)) :
    (∃ script ∈ scripts, script.steps = steps) ∧ rest ⊆ scripts := by
  induction scripts generalizing rest with
  | nil => simp [take?] at h
  | cons script scripts ih =>
    simp only [take?] at h
    split at h
    · cases h
      exact ⟨⟨script, List.mem_cons_self, rfl⟩, List.subset_cons_self _ _⟩
    · obtain ⟨⟨steps', rest'⟩, hfound, heq⟩ := Option.map_eq_some_iff.1 h
      simp only [Prod.mk.injEq] at heq
      obtain ⟨rfl, rfl⟩ := heq
      obtain ⟨⟨taken, htaken, hsteps⟩, hrest⟩ := ih hfound
      exact ⟨⟨taken, List.mem_cons_of_mem _ htaken, hsteps⟩, List.cons_subset_cons _ hrest⟩

/-- The interference that plays scripts up to a depth of nesting. `take` finds the steps for a
moment and marks them as played; `play` takes them, under the interference of the next depth. -/
def interference (take : String → Moment → α → Option (List σ × α))
    (play : Interference α → List σ → Engine α → Engine α) : Nat → Interference α
  | 0 => fun _ _ engine => engine
  | depth + 1 => fun executable moment engine =>
    match take executable moment engine.front with
    | none => engine
    | some (steps, front) => play (interference take play depth) steps { engine with front }

end Script

end AsmScope
