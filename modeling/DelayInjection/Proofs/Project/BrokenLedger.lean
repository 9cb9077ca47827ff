import DelayInjection.Proofs.Json.LongNumber
import DelayInjection.Proofs.Project.Ledger

/-! What comes of reading a ledger whose file holds any bytes at all: a ledger, a warning, or a failure.
Bytes that are no text, and numbers with too many digits, are not taken for a malformed ledger. -/

namespace DelayInjection.Ledger

open Disk (Path)
open Text.Utf8 (Bytes)

/-- Why bytes stop the reader of ledgers. -/
inductive Stops (bytes : Bytes) : Failure → Prop where
  | undecodable {e : Text.Utf8.DecodeError} (h : Text.Utf8.decode bytes = .error e) :
    Stops bytes (.undecodable e)
  | longNumber {text : List Char} {digits : Nat} (htext : Text.Utf8.decode bytes = .ok text)
    (h : Json.parse (Run.unifyNewlines text) = .error (.number digits)) :
    Stops bytes (.longNumber digits)

/-- What every line starts with that warns the user. -/
def warningMark : List Char := "[!] Warning: ".toList

/-- A reader that gives a ledger, or none and a warning, and changes nothing else. -/
def Gives (x : Run (Option Manifest)) (w : World) : Prop :=
  (∃ m, x w = .ok (some m) w) ∨ ∃ line : String, warningMark <+: line.toList ∧
    x w = .ok none { w with warned := w.warned ++ line.toList ++ ['\n'] }

variable {root : Path} {w : World} {bytes : Bytes} {text : List Char}

theorem warningMark_prefix {start : String} (h : warningMark <+: start.toList) (path : Path)
    (tail : String) : warningMark <+: (start ++ path.text ++ tail).toList := by
  rw [String.toList_append, String.toList_append, List.append_assoc]
  exact h.trans (List.prefix_append _ _)

theorem gives_ignoring (path : Path) (detail : String) : Gives (ignoring path detail) w :=
  .inr ⟨_, warningMark_prefix (by decide) path detail, rfl⟩

/-- What is done with the text of the file, once there is one. -/
def ofText (now : String) (path : Path) (text : List Char) : Run (Option Manifest) :=
  match Json.parse text with
  | .error (.number digits) => throw (.longNumber digits)
  | .error e => do
    Run.warn ("[!] Warning: Could not read manifest " ++ path.text ++ ": " ++ e.message text)
    return none
  | .ok (.obj members) =>
    match Manifest.ofJson now (.obj members) with
    | .ok m => return some m
    | .error failure => ignoring path (detail failure)
  | .ok _ => ignoring path ""

section File

variable (now : String)

theorem isFile_of_bytesAt {path : Path} (hbytes : Run.bytesAt path w.disk = .ok bytes) :
    w.disk.isFile path = true := by
  rw [Run.bytesAt, Run.checked] at hbytes
  rw [Disk.isFile]
  split at hbytes
  · cases hbytes
  · cases hread : w.disk.read path with
    | ok _ => rfl
    | error _ =>
      rw [hread] at hbytes
      cases hbytes

variable (hbytes : Run.bytesAt ((folder root).child fileName) w.disk = .ok bytes)

include hbytes

/-- The file is a file, so all depends on its bytes. -/
theorem load_eq : load now root w =
    match Text.Utf8.decode bytes with
    | .error e => .error (.undecodable e) w
    | .ok text => ofText now ((folder root).child fileName) (Run.unifyNewlines text) w := by
  have hget : (get : Run World) w = .ok w w := rfl
  have hlook : Run.look (Run.textAt ((folder root).child fileName)) w =
      .ok ((Text.Utf8.decode bytes).mapError .undecodable) w := by
    change EStateM.Result.ok (Run.textAt _ w.disk) w = _
    rw [Run.textAt, hbytes]
    rfl
  rw [load, Run.bind_of_eq_ok hget]
  simp only [isFile_of_bytesAt hbytes]
  refine (Run.bind_of_eq_ok hlook).trans ?_
  cases Text.Utf8.decode bytes <;> rfl

end File

/-- A text is a ledger or malformed, unless a number in it is too long. -/
theorem gives_ofText (now : String) (path : Path)
    (hshort : ∀ digits, Json.parse text ≠ .error (.number digits)) : Gives (ofText now path text) w := by
  cases hparse : Json.parse text with
  | error e =>
    rw [ofText, hparse]
    cases e with
    | syntaxAt fault place =>
      refine .inr ⟨_, ?_, rfl⟩
      rw [String.append_assoc]
      exact warningMark_prefix (by decide) path _
    | number digits => exact absurd hparse (hshort digits)
  | ok v =>
    rw [ofText, hparse]
    cases v with
    | obj members =>
      cases hof : Manifest.ofJson now (.obj members) with
      | ok m => exact .inl ⟨m, by simp only [hof]; rfl⟩
      | error failure =>
        simp only [hof]
        exact gives_ignoring path (detail failure)
    | _ => exact gives_ignoring path ""

theorem Gives.ne_error {x : Run (Option Manifest)} (h : Gives x w) (failure : Failure) :
    x w ≠ .error failure w := by
  obtain ⟨_, h⟩ | ⟨_, _, h⟩ := h <;> rw [h] <;> exact nofun

section Load

variable (now : String) (hbytes : Run.bytesAt ((folder root).child fileName) w.disk = .ok bytes)

include hbytes

theorem load_of_stops {failure : Failure} (h : Stops bytes failure) :
    load now root w = .error failure w := by
  rw [load_eq now hbytes]
  cases h with
  | undecodable h => rw [h]
  | longNumber htext h =>
    rw [htext]
    simp only [ofText, h]
    rfl

theorem gives_load (h : ∀ failure, ¬ Stops bytes failure) : Gives (load now root) w := by
  have heq := load_eq now hbytes
  cases hdecode : Text.Utf8.decode bytes with
  | error e => exact absurd (.undecodable hdecode) (h _)
  | ok text =>
    rw [hdecode] at heq
    have hgives := gives_ofText (w := w) now ((folder root).child fileName)
      fun digits hparse => h _ (.longNumber hdecode hparse)
    rw [Gives, heq]
    exact hgives

/-- Whatever bytes the file holds, reading the ledger gives one, or none and a warning, unless the bytes
are no text or have a number with too many digits: these two end it, with nothing shown. -/
theorem load_eq_error_iff_stops :
    (∀ failure, load now root w = .error failure w ↔ Stops bytes failure) ∧
      (∀ digits, Stops bytes (.longNumber digits) → ∃ text, Text.Utf8.decode bytes = .ok text ∧
        Json.LongRun (Run.unifyNewlines text) digits) ∧
      ((∃ failure, Stops bytes failure) ∨ Gives (load now root) w) := by
  have hlong : ∀ digits, Stops bytes (.longNumber digits) → ∃ text,
      Text.Utf8.decode bytes = .ok text ∧ Json.LongRun (Run.unifyNewlines text) digits := by
    rintro digits (_ | ⟨htext, hparse⟩)
    exact ⟨_, htext, Json.longRun_of_parse hparse⟩
  by_cases hstops : ∃ failure, Stops bytes failure
  · obtain ⟨failure, hstop⟩ := hstops
    have hload := load_of_stops now hbytes hstop
    refine ⟨fun other => ⟨fun h => ?_, load_of_stops now hbytes⟩, hlong, .inl ⟨failure, hstop⟩⟩
    rw [hload] at h
    cases h
    exact hstop
  · have hgives := gives_load now hbytes fun failure h => hstops ⟨failure, h⟩
    exact ⟨fun failure => ⟨fun h => absurd h (hgives.ne_error failure), load_of_stops now hbytes⟩,
      hlong, .inr hgives⟩

end Load

/-- A file that holds one brace. -/
theorem load_eq_error_iff_stops_of_brace : ∃ w : World, ∃ root : Path,
    Run.bytesAt ((folder root).child fileName) w.disk = .ok [0x7b] ∧ Gives (load "" root) w ∧
      ∀ failure, load "" root w ≠ .error failure w := by
  let w : World := ⟨⟨.folder [(stateFolder, .folder [(fileName, .file [0x7b])])], []⟩, [], [], []⟩
  have hbytes : Run.bytesAt ((folder ⟨true, []⟩).child fileName) w.disk = .ok [0x7b] := rfl
  obtain ⟨hiff, -, hends⟩ := load_eq_error_iff_stops "" hbytes
  have hgoes : ∀ failure, ¬ Stops [0x7b] failure := by
    rintro failure (⟨hdecode⟩ | ⟨htext, hparse⟩)
    · cases hdecode
    · cases htext
      have hsyntax : Json.parse (Run.unifyNewlines ['{']) = .error (.syntaxAt .name 1) := rfl
      cases hsyntax.symm.trans hparse
  exact ⟨w, ⟨true, []⟩, hbytes, hends.resolve_left fun ⟨failure, h⟩ => hgoes failure h,
    fun failure h => hgoes failure ((hiff failure).mp h)⟩

/-- A byte that starts no character: no ledger comes back, and nobody is warned. -/
theorem load_fails_of_undecodable : ∃ (w : World) (root : Path) (failure : Failure),
    Run.bytesAt ((folder root).child fileName) w.disk = .ok [0xff] ∧
      load "" root w = .error failure w :=
  ⟨⟨⟨.folder [(stateFolder, .folder [(fileName, .file [0xff])])], []⟩, [], [], []⟩, ⟨true, []⟩,
    .undecodable ⟨.invalidStart, 0, 1, 0xff⟩, rfl, load_of_stops "" rfl (.undecodable rfl)⟩

end DelayInjection.Ledger
