import SharedCanvas.Proofs.Storage.Saved

namespace SharedCanvas

namespace FileSystem

variable {fs fs' : FileSystem} {place : Place} {path source target content : Bytes}

theorem keepsDirectories_of_insert (fs : FileSystem) (place : Place) (content : Bytes) :
    (fs.insert place (.file content)).KeepsDirectories fs := by
  intro q hq
  by_cases hn : q = []
  · rw [hn, lookup_nil]
  · rw [lookup_insert fs _ hn] at hq
    split at hq
    · simp at hq
    · exact hq

/-- No directory comes or goes. -/
def SameDirectories (fs fs' : FileSystem) : Prop :=
  fs.KeepsDirectories fs' ∧ fs'.KeepsDirectories fs

theorem SameDirectories.refl (fs : FileSystem) : fs.SameDirectories fs :=
  ⟨fun _ h => h, fun _ h => h⟩

theorem SameDirectories.trans {fs'' : FileSystem} (h : fs.SameDirectories fs')
    (h' : fs'.SameDirectories fs'') : fs.SameDirectories fs'' :=
  ⟨h.1.trans h'.1, h'.2.trans h.2⟩

theorem sameDirectories_insert (h : fs.lookup place ≠ some .directory) (content : Bytes) :
    fs.SameDirectories (fs.insert place (.file content)) :=
  ⟨keepsDirectories_insert h content, keepsDirectories_of_insert fs place content⟩

theorem sameDirectories_moved {old new : Place} (ho : fs.lookup old ≠ some .directory)
    (hn : fs.lookup new ≠ some .directory) (content : Bytes) :
    fs.SameDirectories ((fs.erase old).insert new (.file content)) := by
  have hnew : (fs.erase old).lookup new ≠ some .directory := by
    rw [lookup_erase fs (ne_nil_of_lookup hn)]
    split
    · nofun
    · exact hn
  refine ⟨(keepsDirectories_erase ho).trans (keepsDirectories_insert hnew content), ?_⟩
  intro place hp
  have hp := keepsDirectories_of_insert _ new content place hp
  by_cases hne : place = []
  · rw [hne, lookup_nil]
  · rw [lookup_erase fs hne] at hp
    split at hp
    · simp at hp
    · exact hp

theorem sameDirectories_of_write (h : fs.write path content = .ok fs') :
    fs.SameDirectories fs' := by
  obtain ⟨t, -, -, hd, rfl⟩ := write_eq_ok_iff.1 h
  exact sameDirectories_insert hd content

theorem sameDirectories_of_rename (h : fs.rename source target = .ok fs') :
    fs.SameDirectories fs' := by
  obtain ⟨old, new, content, -, -, hf, -, -, hd, rfl⟩ := rename_eq_ok_iff.1 h
  exact sameDirectories_moved (by rw [hf]; nofun) hd content

theorem CanHold.of_keepsDirectories (h : fs.CanHold path) (hk : fs.KeepsDirectories fs')
    (hk' : fs'.KeepsDirectories fs) : fs'.CanHold path := by
  obtain ⟨t, hl, hs, hd⟩ := h
  exact ⟨t, hk.locate hl, hs, fun hn => hd (hk' t.place hn)⟩

theorem exists_write_iff : (∃ fs', fs.write path content = .ok fs') ↔ fs.CanHold path := by
  constructor
  · rintro ⟨fs', h⟩
    obtain ⟨t, hl, hs, hd, -⟩ := write_eq_ok_iff.1 h
    exact ⟨t, hl, hs, hd⟩
  · rintro ⟨t, hl, hs, hd⟩
    exact ⟨_, write_eq_ok_iff.2 ⟨t, hl, hs, hd, rfl⟩⟩

theorem exists_rename_iff_of_write (h : fs.write source content = .ok fs') :
    (∃ moved, fs'.rename source target = .ok moved) ↔ fs.CanHold target := by
  obtain ⟨t, hl, hs, hd, rfl⟩ := write_eq_ok_iff.1 h
  have hk := keepsDirectories_insert hd content
  have hk' := keepsDirectories_of_insert fs t.place content
  constructor
  · rintro ⟨moved, hr⟩
    obtain ⟨_, new, _, -, hn, -, -, hsn, hdn, -⟩ := rename_eq_ok_iff.1 hr
    exact CanHold.of_keepsDirectories ⟨new, hn, hsn, hdn⟩ hk' hk
  · intro hc
    obtain ⟨new, hn, hsn, hdn⟩ := hc.of_keepsDirectories hk hk'
    have hf : (fs.insert t.place (.file content)).lookup t.place = some (.file content) := by
      rw [lookup_insert fs _ (ne_nil_of_lookup hd), if_pos rfl]
    exact ⟨_, rename_eq_ok_iff.2 ⟨t, new, content, hk.locate hl, hn, hf, hs, hsn, hdn, rfl⟩⟩

end FileSystem

theorem SnapshotFile.exists_save_iff {f : SnapshotFile} {s : Snapshot} {fs : FileSystem} :
    (∃ fs', f.save s fs = (fs', .ok ())) ↔ fs.CanHold f.draftPath ∧ fs.CanHold f.path := by
  simp only [save_eq_ok_iff]
  constructor
  · rintro ⟨fs', drafted, hw, hr⟩
    exact ⟨FileSystem.exists_write_iff.1 ⟨drafted, hw⟩,
      (FileSystem.exists_rename_iff_of_write hw).1 ⟨fs', hr⟩⟩
  · rintro ⟨hd, hp⟩
    obtain ⟨drafted, hw⟩ := FileSystem.exists_write_iff.2 hd
    obtain ⟨fs', hr⟩ := (FileSystem.exists_rename_iff_of_write hw).2 hp
    exact ⟨fs', drafted, hw, hr⟩

/-- A file that was saved to can be saved to again. -/
theorem SnapshotFile.exists_save_of_save {f : SnapshotFile} {s : Snapshot} {fs fs' : FileSystem}
    (h : f.save s fs = (fs', .ok ())) (picture : Snapshot) :
    ∃ fs'', f.save picture fs' = (fs'', .ok ()) := by
  obtain ⟨drafted, hw, hr⟩ := save_eq_ok_iff.1 h
  have hsame := (FileSystem.sameDirectories_of_write hw).trans
    (FileSystem.sameDirectories_of_rename hr)
  obtain ⟨hd, hp⟩ := exists_save_iff.1 ⟨fs', h⟩
  exact exists_save_iff.2 ⟨hd.of_keepsDirectories hsame.1 hsame.2,
    hp.of_keepsDirectories hsame.1 hsame.2⟩

/-- A delta is read from the text that is written of it, with any number of pixels. A picture is
loaded from the file that it was saved to, whatever its colours are, and it can be saved wherever a
file can be put. -/
theorem read_back_of_written :
    (∀ (clients : Nat) (pixels : List Pixel), clients < 2 ^ 64 →
        Delta.ofJson (Delta.mk clients pixels).toJson = .ok ⟨clients, pixels⟩) ∧
      ∀ (f : SnapshotFile) (s : Snapshot) (fs : FileSystem), s.width ≠ 0 → s.height ≠ 0 →
        s.pixels.length = s.width.toNat * s.height.toNat →
          ((∃ fs', f.save s fs = (fs', .ok ())) ↔ fs.CanHold f.draftPath ∧ fs.CanHold f.path) ∧
            ∀ fs', f.save s fs = (fs', .ok ()) → f.load fs' = .ok (some s) := by
  constructor
  · intro clients pixels hc
    exact Delta.ofJson_toJson (Nat.le_sub_one_of_lt hc)
  · intro f s fs hw hh hp
    have hs : s.check = .ok () := Snapshot.check_eq_ok_iff.2 ⟨hw, hh, hp⟩
    exact ⟨SnapshotFile.exists_save_iff, fun fs' h => SnapshotFile.load_of_save hs h⟩

/-- A picture of two cells, one of them in no colour of the palette, and a file that is there. -/
theorem read_back_of_written_two_cells :
    let f : SnapshotFile := ⟨Bytes.ofString "/canvas.json"⟩
    let s : Snapshot := ⟨2, 1, [29, 200]⟩
    let fs := FileSystem.empty.install f.path [0x7B]
    s.width ≠ 0 ∧ s.height ≠ 0 ∧ s.pixels.length = s.width.toNat * s.height.toNat ∧
      ∃ fs', f.save s fs = (fs', .ok ()) ∧ f.load fs' = .ok (some s) ∧
        Delta.ofJson (Delta.mk (2 ^ 64 - 1) [⟨65535, 0, 255⟩, ⟨65535, 0, 7⟩]).toJson =
          .ok ⟨2 ^ 64 - 1, [⟨65535, 0, 255⟩, ⟨65535, 0, 7⟩]⟩ := by
  intro f s fs
  have hw : s.width ≠ 0 := by decide
  have hh : s.height ≠ 0 := by decide
  have hp : s.pixels.length = s.width.toNat * s.height.toNat := by decide
  obtain ⟨hsave, hload⟩ := read_back_of_written.2 f s fs hw hh hp
  have hd : fs.CanHold f.draftPath :=
    ⟨⟨[Bytes.ofString "canvas.json.tmp"], false⟩, by decide +kernel, rfl, by decide +kernel⟩
  have hf : fs.CanHold f.path :=
    ⟨⟨[Bytes.ofString "canvas.json"], false⟩, by decide +kernel, rfl, by decide +kernel⟩
  obtain ⟨fs', h⟩ := hsave.2 ⟨hd, hf⟩
  exact ⟨hw, hh, hp, fs', h, hload fs' h, read_back_of_written.1 _ _ (by decide)⟩

end SharedCanvas
