import SharedCanvas.Proofs.Json.Written
import SharedCanvas.Storage.SnapshotFile

namespace SharedCanvas

theorem mapError_eq_ok_iff {ε ε' α : Type} {f : ε → ε'} {x : Except ε α} {a : α} :
    x.mapError f = .ok a ↔ x = .ok a := by
  cases x with
  | error e =>
    change Except.error (f e) = .ok a ↔ _
    simp
  | ok b =>
    change Except.ok b = .ok a ↔ _
    simp

theorem bind_eq_ok_iff {ε α β : Type} {x : Except ε α} {f : α → Except ε β} {b : β} :
    x >>= f = .ok b ↔ ∃ a, x = .ok a ∧ f a = .ok b := by
  cases x <;> simp [bind, Except.bind]

namespace FileSystem

/-- Every directory is still one. -/
def KeepsDirectories (fs fs' : FileSystem) : Prop :=
  ∀ place, fs.lookup place = some .directory → fs'.lookup place = some .directory

variable {fs fs' : FileSystem} {place : Place} {names : List Bytes} {path source target : Bytes}
  {content : Bytes}

theorem lookup_of_walk {q : Place} (hw : fs.walk place names = .ok q) :
    fs.lookup place = some .directory := by
  unfold walk at hw
  split at hw
  · simp at hw
  · simp at hw
  · assumption

theorem KeepsDirectories.walk (h : fs.KeepsDirectories fs') {q : Place}
    (hw : fs.walk place names = .ok q) : fs'.walk place names = .ok q := by
  have hd := lookup_of_walk hw
  induction names generalizing place with
  | nil =>
    rw [FileSystem.walk, hd] at hw
    rw [FileSystem.walk, h place hd]
    exact hw
  | cons s ss ih =>
    rw [FileSystem.walk, hd] at hw
    rw [FileSystem.walk, h place hd]
    dsimp only at hw ⊢
    -- The name stays, goes up or goes down, and the rest of the way is kept from there.
    split_ifs at hw ⊢
    · exact ih hw (lookup_of_walk hw)
    · exact ih hw (lookup_of_walk hw)
    · exact ih hw (lookup_of_walk hw)

theorem KeepsDirectories.locate (h : fs.KeepsDirectories fs') {t : Option Target}
    (hl : fs.locate path = .ok t) : fs'.locate path = .ok t := by
  unfold FileSystem.locate at hl ⊢
  split_ifs at hl ⊢
  split
  · rename_i hs
    simpa [hs] using hl
  · rename_i name above hs
    simp only [hs] at hl
    cases hw : fs.walk [] above.reverse with
    | error e => simp [hw] at hl
    | ok q =>
      rw [hw] at hl
      rw [h.walk hw]
      exact hl

theorem ne_nil_of_lookup (h : fs.lookup place ≠ some .directory) : place ≠ [] := by
  rintro rfl
  exact h fs.lookup_nil

theorem lookup_insert_of_ne {p : Place} (h : place ≠ p) (fs : FileSystem) (entry : Entry) :
    (fs.insert p entry).lookup place = fs.lookup place := by
  by_cases hn : place = []
  · rw [hn, lookup_nil, lookup_nil]
  · rw [lookup_insert fs entry hn, if_neg h]

theorem lookup_erase_of_ne {p : Place} (h : place ≠ p) (fs : FileSystem) :
    (fs.erase p).lookup place = fs.lookup place := by
  by_cases hn : place = []
  · rw [hn, lookup_nil, lookup_nil]
  · rw [lookup_erase fs hn, if_neg h]

theorem keepsDirectories_insert (h : fs.lookup place ≠ some .directory) (content : Bytes) :
    fs.KeepsDirectories (fs.insert place (.file content)) := by
  intro q hq
  rw [lookup_insert_of_ne, hq]
  rintro rfl
  exact h hq

theorem keepsDirectories_erase (h : fs.lookup place ≠ some .directory) :
    fs.KeepsDirectories (fs.erase place) := by
  intro q hq
  rw [lookup_erase_of_ne, hq]
  rintro rfl
  exact h hq

theorem KeepsDirectories.trans {fs'' : FileSystem} (h : fs.KeepsDirectories fs')
    (h' : fs'.KeepsDirectories fs'') : fs.KeepsDirectories fs'' :=
  fun place hp => h' place (h place hp)

theorem read_of_lookup {t : Target} (hl : fs.locate path = .ok (some t)) (hs : t.slashed = false)
    (hf : fs.lookup t.place = some (.file content)) : fs.read path = .ok content := by
  simp [read, hl, hf, hs]

/-- A file can be put at the path: the directory for it is there, and its name is no directory's. -/
def CanHold (fs : FileSystem) (path : Bytes) : Prop :=
  ∃ t : Target, fs.locate path = .ok (some t) ∧ t.slashed = false ∧
    fs.lookup t.place ≠ some .directory

theorem write_eq_ok_iff : fs.write path content = .ok fs' ↔
    ∃ t : Target, fs.locate path = .ok (some t) ∧ t.slashed = false ∧
      fs.lookup t.place ≠ some .directory ∧ fs' = fs.insert t.place (.file content) := by
  unfold write
  constructor
  · intro h
    split at h
    · simp at h
    · simp at h
    · rename_i t hl
      split at h
      · simp at h
      · rename_i hg
        simp only [Bool.or_eq_true, beq_iff_eq, not_or, Bool.not_eq_true] at hg
        rw [Except.ok.injEq] at h
        exact ⟨t, hl, hg.1, hg.2, h.symm⟩
  · rintro ⟨t, hl, hs, hd, rfl⟩
    simp [hl, hs, hd]

theorem rename_eq_ok_iff : fs.rename source target = .ok fs' ↔
    ∃ (old new : Target) (content : Bytes), fs.locate source = .ok (some old) ∧
      fs.locate target = .ok (some new) ∧ fs.lookup old.place = some (.file content) ∧
        old.slashed = false ∧ new.slashed = false ∧ fs.lookup new.place ≠ some .directory ∧
          fs' = (fs.erase old.place).insert new.place (.file content) := by
  unfold rename
  constructor
  · intro h
    split at h
    · simp at h
    · simp at h
    · rename_i old new ho hn
      split at h
      · simp at h
      · simp at h
      · rename_i content hf
        split at h
        · simp at h
        · rename_i hg
          simp only [Bool.or_eq_true, not_or, Bool.not_eq_true] at hg
          split at h
          · simp at h
          · rename_i hd
            rw [beq_iff_eq] at hd
            rw [Except.ok.injEq] at h
            exact ⟨old, new, content, ho, hn, hf, hg.1, hg.2, hd, h.symm⟩
    · simp at h
  · rintro ⟨old, new, content, ho, hn, hf, hso, hsn, hd, rfl⟩
    simp [ho, hn, hf, hso, hsn, hd]

theorem read_of_write (h : fs.write path content = .ok fs') : fs'.read path = .ok content := by
  obtain ⟨t, hl, hs, hd, rfl⟩ := write_eq_ok_iff.1 h
  refine read_of_lookup ((keepsDirectories_insert hd content).locate hl) hs ?_
  rw [lookup_insert fs _ (ne_nil_of_lookup hd), if_pos rfl]

theorem read_of_rename (h : fs.rename source target = .ok fs') :
    ∃ content, fs.read source = .ok content ∧ fs'.read target = .ok content := by
  obtain ⟨old, new, content, ho, hn, hf, hso, hsn, hd, rfl⟩ := rename_eq_ok_iff.1 h
  refine ⟨content, read_of_lookup ho hso hf, ?_⟩
  have hold : fs.lookup old.place ≠ some .directory := by rw [hf]; nofun
  have hnew : (fs.erase old.place).lookup new.place ≠ some .directory := by
    rw [lookup_erase fs (ne_nil_of_lookup hd)]
    split
    · nofun
    · exact hd
  have hk := (keepsDirectories_erase hold).trans (keepsDirectories_insert hnew content)
  refine read_of_lookup (hk.locate hn) hsn ?_
  rw [lookup_insert _ _ (ne_nil_of_lookup hd), if_pos rfl]

end FileSystem

namespace SnapshotFile

variable {f : SnapshotFile} {s : Snapshot} {fs fs' : FileSystem}

/-- A save that succeeds has written the draft and then moved it. -/
theorem save_eq_ok_iff : f.save s fs = (fs', .ok ()) ↔
    ∃ drafted, fs.write f.draftPath s.toJson = .ok drafted ∧
      drafted.rename f.draftPath f.path = .ok fs' := by
  unfold save
  constructor
  · intro h
    split at h
    · simp at h
    · rename_i drafted hw
      split at h
      · simp at h
      · rename_i published hp
        rw [Prod.mk.injEq] at h
        exact ⟨drafted, mapError_eq_ok_iff.1 hw, h.1 ▸ mapError_eq_ok_iff.1 hp⟩
  · rintro ⟨drafted, hw, hr⟩
    have hd : f.writeDraft s fs = .ok drafted := mapError_eq_ok_iff.2 hw
    have hp : f.publish drafted = .ok fs' := mapError_eq_ok_iff.2 hr
    simp only [hd, hp]

theorem read_of_save (h : f.save s fs = (fs', .ok ())) : fs'.read f.path = .ok s.toJson := by
  obtain ⟨drafted, hw, hp⟩ := save_eq_ok_iff.1 h
  obtain ⟨content, hr, ht⟩ := FileSystem.read_of_rename hp
  rw [FileSystem.read_of_write hw, Except.ok.injEq] at hr
  rw [ht, hr]

theorem load_of_read (hs : s.check = .ok ()) (h : fs.read f.path = .ok s.toJson) :
    f.load fs = .ok (some s) := by
  rw [load, h]
  simp only [decode, s.ofJson_toJson, hs]
  rfl

/-- What is saved is loaded, if its dimensions call for as many pixels as it has. -/
theorem load_of_save (hs : s.check = .ok ()) (h : f.save s fs = (fs', .ok ())) :
    f.load fs' = .ok (some s) :=
  load_of_read hs (read_of_save h)

theorem load_of_publish (hs : s.check = .ok ()) (hd : fs.read f.draftPath = .ok s.toJson)
    (h : f.publish fs = .ok fs') : f.load fs' = .ok (some s) := by
  obtain ⟨content, hr, ht⟩ := FileSystem.read_of_rename (mapError_eq_ok_iff.1 h)
  rw [hd, Except.ok.injEq] at hr
  exact load_of_read hs (hr ▸ ht)

end SnapshotFile
end SharedCanvas
