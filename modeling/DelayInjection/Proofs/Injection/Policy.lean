import DelayInjection.Proofs.Injection.Placement

/-! Placing delays is the policy: which statements it chooses, said by their positions and without a
walk through the bodies, and that each of them is answered in its turn. -/

namespace DelayInjection.Injection

open Text.Utf8 (Bytes)

variable (source : Bytes) (options : Options) (spelling : Spelling)

/-- The statements of a body that the mode selects at their positions, less those behind other code
that cannot be moved to a line of their own. -/
def chosen (body : Body) : List Site :=
  (body.statements.zipIdx.filter fun s => Mode.selects options.mode s.1.kind s.2 &&
    (spelling.splitsLines || !isInline source s.1.offset)).map (·.1)

/-- The choices in a body: its chosen statements, numbered among themselves. -/
def due (body : Body) : List Choice :=
  (chosen source options spelling body).zipIdx.map fun s => ⟨body.name, s.2, s.1⟩

/-- The walk counts positions and indices at once; they are the numbers from two passes. -/
theorem choicesInBody_eq (container : String) (position index : Nat) (sites : List Site) :
    choicesInBody source options spelling container position index sites =
      ((((sites.zipIdx position).filter fun s => selects source options spelling s.2 s.1).map
        (·.1)).zipIdx index).map fun s => ⟨container, s.2, s.1⟩ := by
  induction sites generalizing position index with
  | nil => rfl
  | cons site rest ih =>
    rw [choicesInBody, List.zipIdx_cons, List.filter_cons]
    by_cases h : selects source options spelling position site = true
    · rw [if_pos h, if_pos h, List.map_cons, List.zipIdx_cons, List.map_cons, ih]
    · rw [if_neg h, if_neg h, ih]

theorem choices_eq_flatMap_due (bodies : List Body) :
    choices source options spelling bodies = bodies.flatMap (due source options spelling) := by
  rw [choices]
  congr 1
  funext body
  exact choicesInBody_eq source options spelling body.name 0 0 body.statements

variable {source options spelling}

/-- Placement returns exactly the answers to what is due, body by body and statement by statement:
with each insertion its point, and nothing else. -/
theorem placements_eq_ok_iff {bodies : List Body} {placed : List (Insertion × InjectionPoint)} :
    placements source options spelling bodies = .ok placed ↔
      List.Forall₂ (fun c answer => c.Answered source options spelling answer.1 answer.2)
        (bodies.flatMap (due source options spelling)) placed := by
  rw [placements_eq_mapM, choices_eq_flatMap_due]
  constructor
  · intro h
    exact (forall₂_of_mapM_eq_ok h).imp fun _ _ => place_eq_ok_iff.mp
  · intro h
    exact mapM_eq_ok_of_forall₂ (h.imp fun _ _ => place_eq_ok_iff.mpr)

end DelayInjection.Injection
