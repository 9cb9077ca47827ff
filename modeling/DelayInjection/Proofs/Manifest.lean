import DelayInjection.Manifest
import DelayInjection.Project.World
import DelayInjection.Proofs.Json.RoundTrip
import DelayInjection.Proofs.Text.Utf8

/-! A ledger that is written is read back with all that it held. -/

namespace DelayInjection

open Text.Utf8 (encode)

theorem Json.isPlainItems_map {α : Type} {f : α → Json} {items : List α}
    (h : ∀ a ∈ items, (f a).IsPlain) : IsPlainItems (items.map f) := by
  induction items with
  | nil => trivial
  | cons a items ih => exact ⟨h a (by simp), ih fun b hb => h b (by simp [hb])⟩

theorem Json.isPlainMembers_map {α : Type} {f : String × α → Json} {members : List (String × α)}
    (h : ∀ m ∈ members, (f m).IsPlain) : IsPlainMembers (members.map fun m => (m.1, f m)) := by
  induction members with
  | nil => trivial
  | cons m members ih => exact ⟨h m (by simp), ih fun n hn => h n (by simp [hn])⟩

theorem mapM_map_eq_ok {α β : Type} {f : α → Except Failure β} {g : β → α}
    (h : ∀ b, f (g b) = .ok b) (bs : List β) : (bs.map g).mapM f = .ok bs := by
  induction bs with
  | nil => rfl
  | cons b bs ih =>
    rw [List.map_cons, List.mapM_cons, h, ih]
    rfl

namespace PointEntry

theorem ofJson_toJson (p : PointEntry) : ofJson p.toJson = .ok p := rfl

/-- What a point holds can be written. -/
structure IsPlain (p : PointEntry) : Prop where
  id : p.id.IsPlain
  container : p.container.IsPlain
  index : p.index.IsPlain
  line : p.line.IsPlain
  column : p.column.IsPlain
  delay : p.delay.IsPlain

theorem IsPlain.toJson {p : PointEntry} (h : p.IsPlain) : p.toJson.IsPlain :=
  ⟨by simp, h.id, h.container, h.index, h.line, h.column, h.delay, trivial⟩

end PointEntry

namespace FileRecord

theorem ofJson_toJson (r : FileRecord) : ofJson r.toJson = .ok r := by
  change ((r.points.map PointEntry.toJson).mapM PointEntry.ofJson >>= _) = _
  rw [mapM_map_eq_ok PointEntry.ofJson_toJson]
  rfl

/-- What a record holds can be written. -/
structure IsPlain (r : FileRecord) : Prop where
  adapterId : r.adapterId.IsPlain
  originalHash : r.originalHash.IsPlain
  modifiedHash : r.modifiedHash.IsPlain
  points : ∀ p ∈ r.points, p.IsPlain

theorem IsPlain.toJson {r : FileRecord} (h : r.IsPlain) : r.toJson.IsPlain :=
  ⟨by simp, h.adapterId, h.originalHash, h.modifiedHash,
    Json.isPlainItems_map fun p hp => (h.points p hp).toJson, trivial, trivial⟩

end FileRecord

namespace Manifest

theorem readFiles_toJson (files : List (String × FileRecord)) :
    readFiles (.obj (files.map fun f => (f.1, f.2.toJson))) = .ok files := by
  refine mapM_map_eq_ok (fun f => ?_) files
  rw [FileRecord.ofJson_toJson]
  rfl

theorem readSupportFiles_arr (items : List Json) : readSupportFiles (.arr items) = .ok items := by
  cases items <;> rfl

/-- Nothing is lost, and nothing is taken from an empty ledger. -/
theorem ofJson_toJson (now : String) (m : Manifest) : ofJson now m.toJson = .ok m := by
  change (readFiles (.obj (m.files.map fun f : String × FileRecord => (f.1, f.2.toJson))) >>= _) = _
  rw [readFiles_toJson]
  change (readSupportFiles (.arr m.supportFiles) >>= _) = _
  rw [readSupportFiles_arr]
  rfl

/-- What a ledger holds can be written, and no file is listed twice. -/
structure IsPlain (m : Manifest) : Prop where
  version : m.version.IsPlain
  createdAt : m.createdAt.IsPlain
  seed : m.seed.IsPlain
  mode : m.mode.IsPlain
  names : (m.files.map (·.1)).Nodup
  files : ∀ f ∈ m.files, f.2.IsPlain
  supportFiles : ∀ v ∈ m.supportFiles, v.IsPlain

theorem IsPlain.toJson {m : Manifest} (h : m.IsPlain) : m.toJson.IsPlain := by
  have hfiles : Json.IsPlain (.obj (m.files.map fun f => (f.1, f.2.toJson))) := by
    refine ⟨?_, Json.isPlainMembers_map fun f hf => (h.files f hf).toJson⟩
    rw [List.map_map]
    exact h.names
  have hsupport : Json.IsPlainItems (m.supportFiles.map id) := Json.isPlainItems_map h.supportFiles
  rw [List.map_id] at hsupport
  exact ⟨by simp, h.version, h.createdAt, h.seed, h.mode, hfiles, hsupport, trivial⟩

end Manifest

theorem Run.unifyNewlines_eq {text : List Char} (h : '\r' ∉ text) : unifyNewlines text = text := by
  induction text with
  | nil => rfl
  | cons c text ih =>
    rw [List.mem_cons, not_or] at h
    rw [unifyNewlines, ih h.2]
    · exact fun _ hc _ => h.1 hc.symm
    · exact fun hc => h.1 hc.symm

/-- The text of a written ledger holds no carriage return, so that its lines are kept. -/
theorem Manifest.IsPlain.unifyNewlines {m : Manifest} (h : m.IsPlain) :
    Run.unifyNewlines m.toJson.indented = m.toJson.indented :=
  Run.unifyNewlines_eq fun hmem => by cases Json.isWritten_of_mem_indented h.toJson _ hmem

end DelayInjection
