import DelayInjection.Proofs.JavaScript.Statement
import DelayInjection.Proofs.LineBreaks
import DelayInjection.Proofs.Python.Layout

/-! Injection followed by removal, with the locators of the two languages. What their parsers say of the
imports is enough to put the import of the support module behind something other than blanks, so it never
comes between a statement and the indent of its line. -/

namespace DelayInjection.Adapter

open Injection (choices isInline placements weave)
open Text.Utf8 (encode)

variable {name : String} {a : Adapter} {source : List Char} {options : Options} {layout : Layout}

theorem importAnchor_ne_zero (h : breaksAnchor (encode source) layout = true) :
    layout.importAnchor ≠ 0 := by
  simp only [breaksAnchor, Bool.and_eq_true, bne_iff_ne] at h
  exact h.1.2

/-- An adapter of the registry finds the statements with one of the two parsers. -/
theorem locate_cases (ha : (name, a) ∈ Program.registry.adapters)
    (hlocate : a.locate (encode source) options = .ok layout) :
    (a = JavaScript.adapter ∧ ∃ program, JavaScript.outline? source = some program ∧
        layout = JavaScript.layout (encode source) options.skipGenerators program) ∨
      a = Python.adapter ∧ ∃ statements, Python.outline (encode source) = .ok statements ∧
        layout = Python.layout (encode source) options.skipGenerators statements := by
  simp only [Program.registry, List.map_cons, List.map_nil, List.mem_cons, Prod.mk.injEq,
    List.not_mem_nil, or_false] at ha
  rcases ha with ⟨-, rfl⟩ | ⟨-, rfl⟩
  · change JavaScript.locate _ _ = _ at hlocate
    unfold JavaScript.locate at hlocate
    split at hlocate
    next program hprogram =>
      cases hlocate
      -- the bytes were made of a text, and decoding gives it back
      rw [Text.Utf8.decode?, Text.Utf8.decode_encode] at hprogram
      exact .inl ⟨rfl, program, hprogram, rfl⟩
    · cases hlocate
  · exact .inr ⟨rfl, Python.outline_of_locate hlocate⟩

/-- Both locators put the anchor to the top, or behind more than blanks. -/
theorem isInline_anchor_of_mem (ha : (name, a) ∈ Program.registry.adapters)
    (hlocate : a.locate (encode source) options = .ok layout) (hanchor : layout.importAnchor ≠ 0) :
    isInline (encode source) layout.importAnchor = true := by
  rcases locate_cases ha hlocate with ⟨-, program, hprogram, rfl⟩ | ⟨-, statements, hstatements, rfl⟩
  · exact JavaScript.isInline_importAnchor hprogram hanchor
  · exact Python.isInline_importAnchor hstatements hanchor

/-- What is found in a line with an import and a statement. -/
theorem among_of_import (hsource : source = "import 'a'; f();\n".toList)
    (hoptions : options = { filePath := "a.js" })
    (hlayout : layout = ⟨[⟨JavaScript.topLevel, [⟨.plain, 12, 1, 12⟩]⟩], 11, false⟩) :
    JavaScript.locate (encode source) options = .ok layout ∧
      (choices (encode source) options JavaScript.adapter.spelling layout.bodies).length = 1 ∧
      Among source options JavaScript.adapter.spelling layout := by
  have hlocate : JavaScript.locate (encode source) options = .ok layout := by
    subst hsource hoptions hlayout
    decide +kernel
  have hchoices : choices (encode source) options JavaScript.adapter.spelling layout.bodies =
      [⟨JavaScript.topLevel, 0, ⟨.plain, 12, 1, 12⟩⟩] := by
    subst hsource hoptions hlayout
    decide +kernel
  have hinline : isInline (encode source) 12 = true := by
    subst hsource
    decide +kernel
  have hmark : Injection.startsWithMark (encode source) = false := by
    subst hsource
    decide +kernel
  refine ⟨hlocate, congrArg List.length hchoices, ?_⟩
  constructor
  case anchor =>
    rw [hsource, hlayout]
    exact ⟨"import 'a';".toList, " f();\n".toList, rfl, rfl⟩
  all_goals simp only [hchoices, hmark, List.forall_mem_singleton, Bool.false_eq_true,
    false_implies, hinline, Bool.true_eq_false]
  case boundary =>
    rw [hsource]
    exact ⟨"import 'a'; ".toList, "f();\n".toList, rfl, rfl⟩
  case inside =>
    rw [hsource]
    decide +kernel

end DelayInjection.Adapter
