import DelayInjection.Injection
import DelayInjection.Proofs.Text.Numeral
import Mathlib.Data.List.Forall2

/-! Which statements of a layout get a delay, apart from what is written in front of them. Placing them
is one placement for each choice, in order. -/

namespace DelayInjection

/-- Success of a traversal is success at every item. -/
theorem forall₂_of_mapM_eq_ok {α β ε : Type} {f : α → Except ε β} {xs : List α} {ys : List β}
    (h : xs.mapM f = .ok ys) : List.Forall₂ (fun x y => f x = .ok y) xs ys := by
  induction xs generalizing ys with
  | nil =>
    cases h
    exact .nil
  | cons x xs ih =>
    rw [List.mapM_cons] at h
    cases hx : f x with
    | error e =>
      rw [hx] at h
      cases h
    | ok y =>
      cases hxs : xs.mapM f with
      | error e =>
        rw [hx, hxs] at h
        cases h
      | ok zs =>
        rw [hx, hxs] at h
        cases h
        exact .cons hx (ih hxs)

theorem mapM_eq_ok_of_forall₂ {α β ε : Type} {f : α → Except ε β} {xs : List α} {ys : List β}
    (h : List.Forall₂ (fun x y => f x = .ok y) xs ys) : xs.mapM f = .ok ys := by
  induction h with
  | nil => rfl
  | cons hx _ ih =>
    rw [List.mapM_cons, hx, ih]
    rfl

namespace Injection

open Text.Utf8 (Bytes)

/-- A statement that gets a delay, with its container and the index of its point there. -/
structure Choice where
  container : String
  index : Nat
  site : Site
deriving DecidableEq, Repr

variable (source : Bytes) (options : Options) (spelling : Spelling)

/-- The choices in the rest of a body. -/
def choicesInBody (container : String) (position index : Nat) : List Site → List Choice
  | [] => []
  | site :: rest =>
    if selects source options spelling position site
      then ⟨container, index, site⟩ :: choicesInBody container (position + 1) (index + 1) rest
    else choicesInBody container (position + 1) index rest

def choices (bodies : List Body) : List Choice :=
  bodies.flatMap fun body => choicesInBody source options spelling body.name 0 0 body.statements

def place (c : Choice) : Except Failure (Insertion × InjectionPoint) :=
  placeAt source options spelling c.container c.index c.site

theorem placeInBody_eq_mapM (container : String) (position index : Nat) (sites : List Site) :
    placeInBody source options spelling container position index sites =
      (choicesInBody source options spelling container position index sites).mapM
        (place source options spelling) := by
  induction sites generalizing position index with
  | nil => rfl
  | cons site rest ih =>
    rw [placeInBody, choicesInBody]
    split
    · rw [List.mapM_cons, ih]
      rfl
    · exact ih _ _

theorem placements_eq_mapM (bodies : List Body) : placements source options spelling bodies =
    (choices source options spelling bodies).mapM (place source options spelling) := by
  induction bodies with
  | nil => rfl
  | cons body rest ih =>
    rw [placements, ih, placeInBody_eq_mapM, choices, choices, List.flatMap_cons, List.mapM_append]
    rfl

variable {source options spelling}

theorem selects_of_mem_choicesInBody {container : String} {position index : Nat} {sites : List Site}
    {c : Choice} (h : c ∈ choicesInBody source options spelling container position index sites) :
    ∃ n, selects source options spelling n c.site = true := by
  induction sites generalizing position index with
  | nil => cases h
  | cons site rest ih =>
    rw [choicesInBody] at h
    split at h
    next hs =>
      rcases List.mem_cons.mp h with rfl | h
      · exact ⟨position, hs⟩
      · exact ih h
    next => exact ih h

theorem selects_of_mem_choices {bodies : List Body} {c : Choice}
    (h : c ∈ choices source options spelling bodies) :
    ∃ n, selects source options spelling n c.site = true := by
  obtain ⟨body, -, hc⟩ := List.mem_flatMap.mp h
  exact selects_of_mem_choicesInBody hc

/-- What is chosen is a statement of a body. -/
theorem exists_body_of_mem_choices {bodies : List Body} {c : Choice}
    (h : c ∈ choices source options spelling bodies) : ∃ body ∈ bodies, c.site ∈ body.statements := by
  have hinside : ∀ {container : String} {position index : Nat} {sites : List Site},
      c ∈ choicesInBody source options spelling container position index sites → c.site ∈ sites := by
    intro container position index sites hc
    induction sites generalizing position index with
    | nil => cases hc
    | cons site rest ih =>
      rw [choicesInBody] at hc
      split at hc
      · rcases List.mem_cons.mp hc with rfl | hc
        · exact List.mem_cons_self
        · exact List.mem_cons_of_mem _ (ih hc)
      · exact List.mem_cons_of_mem _ (ih hc)
  obtain ⟨body, hbody, hc⟩ := List.mem_flatMap.mp h
  exact ⟨body, hbody, hinside hc⟩

/-- Nothing is selected in an unknown mode. -/
theorem mode_mem_of_selects {position : Nat} {site : Site}
    (h : selects source options spelling position site = true) : options.mode ∈ Mode.all := by
  rw [selects, Bool.and_eq_true, Mode.selects] at h
  obtain ⟨h, -⟩ := h
  split at h
  next hm => simp [Mode.all, hm]
  next =>
    split at h
    next hm => simp [Mode.all, hm]
    next => simp [Mode.all, beq_iff_eq.mp h]

/-- How a choice is answered. The point says where the statement stands, with the delay and the id
that are derived for it. In front of the statement there are a comment that shows the id, the seed and
the mode, and a call with the delay. -/
structure Choice.Answered (source : Bytes) (options : Options) (spelling : Spelling) (c : Choice)
    (i : Insertion) (p : InjectionPoint) : Prop where
  container : p.container = c.container
  index : p.index = c.index
  line : p.line = c.site.line
  column : p.column = c.site.column
  delay : Delay.milliseconds options.seed options.filePath c.container c.index options.minDelay
    options.maxDelay = .ok p.delay
  id : pointId options.filePath c.container c.index c.site.line c.site.column = .ok p.id
  seed : IsShort options.seed
  offset : i.offset = c.site.offset
  text : i.text = insertedText (indentText (indent source c.site.offset))
    (isInline source c.site.offset)
    (spelling.commentOpening ++ ("@flake-monster[jt92-se2j!] v1 id=" ++ p.id ++ " seed=" ++
      toString options.seed ++ " mode=" ++ options.mode) ++ spelling.commentClosing)
    (spelling.callOpening ++ toString p.delay ++ spelling.callClosing)

theorem place_eq_ok_iff {c : Choice} {i : Insertion} {p : InjectionPoint} :
    place source options spelling c = .ok (i, p) ↔ c.Answered source options spelling i p := by
  rw [place, placeAt]
  constructor
  · intro h
    cases hdelay : Delay.milliseconds options.seed options.filePath c.container c.index
        options.minDelay options.maxDelay with
    | error e =>
      rw [hdelay] at h
      cases h
    | ok delay =>
      cases hid : pointId options.filePath c.container c.index c.site.line c.site.column with
      | error e =>
        rw [hdelay, hid] at h
        cases h
      | ok id =>
        cases hseed : Text.showInt? options.seed with
        | none =>
          rw [hdelay, hid, hseed] at h
          cases h
        | some seed =>
          rw [hdelay, hid, hseed] at h
          cases h
          obtain ⟨hshort, rfl⟩ := showInt?_eq_some_iff.mp hseed
          exact ⟨rfl, rfl, rfl, rfl, hdelay, hid, hshort, rfl, rfl⟩
  · rintro ⟨hcontainer, hindex, hline, hcolumn, hdelay, hid, hshort, hoffset, htext⟩
    obtain ⟨offset, text⟩ := i
    obtain ⟨id, container, index, line, column, delay⟩ := p
    simp only at hcontainer hindex hline hcolumn hdelay hid hoffset htext
    rw [hdelay, hid, showInt?_eq hshort]
    subst hcontainer hindex hline hcolumn hoffset htext
    rfl

/-- What is written in front of a statement. -/
def written (source : Bytes) (options : Options) (spelling : Spelling) (offset : Nat)
    (point : InjectionPoint) : List Char :=
  insertedText (indentText (indent source offset)) (isInline source offset)
    (commentLine spelling point.id (toString options.seed) options.mode)
    (callLine spelling point.delay)

/-- A placement writes the texts of its point in front of its statement. -/
theorem insertion_of_place {c : Choice} {i : Insertion} {p : InjectionPoint}
    (h : place source options spelling c = .ok (i, p)) :
    i = ⟨c.site.offset, written source options spelling c.site.offset p⟩ ∧
      ∃ key, p.id = idOfKey key := by
  have hanswered := place_eq_ok_iff.mp h
  obtain ⟨offset, text⟩ := i
  obtain rfl : offset = c.site.offset := hanswered.offset
  obtain rfl : text = _ := hanswered.text
  refine ⟨rfl, ?_⟩
  have hid := hanswered.id
  unfold pointId at hid
  split at hid
  · cases hid
  · next key _ => exact ⟨key, (Except.ok.inj hid).symm⟩

section Placed

variable {bodies : List Body} {placed : List (Insertion × InjectionPoint)}
  (h : placements source options spelling bodies = .ok placed)

include h

theorem forall₂_of_placements : List.Forall₂ (fun c p => place source options spelling c = .ok p)
    (choices source options spelling bodies) placed :=
  forall₂_of_mapM_eq_ok (placements_eq_mapM source options spelling bodies ▸ h)

theorem length_of_placements : placed.length = (choices source options spelling bodies).length :=
  (forall₂_of_placements h).length_eq.symm

theorem offsets_of_placements : placed.map (·.1.offset) =
    (choices source options spelling bodies).map (·.site.offset) := by
  have hf := (forall₂_of_placements h).imp fun c p hp =>
    show p.1.offset = c.site.offset by rw [(insertion_of_place (i := p.1) (p := p.2) hp).1]
  have heq := List.forall₂_map_left_iff.mpr (List.forall₂_map_right_iff.mpr hf.flip)
  exact List.forall₂_eq_eq_eq ▸ heq

/-- Every placement belongs to a choice. -/
theorem exists_choice {p : Insertion × InjectionPoint} (hp : p ∈ placed) :
    ∃ c ∈ choices source options spelling bodies, place source options spelling c = .ok p := by
  have hf := forall₂_of_placements h
  clear h
  generalize choices source options spelling bodies = cs at hf ⊢
  induction hf with
  | nil => cases hp
  | cons hhead _ ih =>
    rcases List.mem_cons.mp hp with rfl | hp
    · exact ⟨_, List.mem_cons_self, hhead⟩
    · obtain ⟨c, hc, hpc⟩ := ih hp
      exact ⟨c, List.mem_cons_of_mem _ hc, hpc⟩

end Placed
end Injection
end DelayInjection
