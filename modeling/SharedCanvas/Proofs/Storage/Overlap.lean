import SharedCanvas.Proofs.Storage.Draft
import SharedCanvas.Storage.Saves

namespace SharedCanvas

deriving instance DecidableEq for Stage

namespace Saves
open SnapshotFile

variable {ι : Type} [DecidableEq ι]

section
variable {f : SnapshotFile} {picture : ι → Snapshot} {s : Saves ι} {fs : FileSystem} {i j : ι}
  {dir : FileSystem.Place} {name : Bytes}

theorem run_append (s : Saves ι) (before after : List ι) :
    run f picture s (before ++ after) = run f picture (run f picture s before) after :=
  List.foldl_append

theorem run_alone (h : s.stage i = .called) {files : FileSystem} {r : Except StoreError Unit}
    (hs : f.save (picture i) s.files = (files, r)) :
    run f picture s [i, i] = s.put i files (.ended r) := by
  simp only [run, List.foldl_cons, List.foldl_nil]
  unfold SnapshotFile.save at hs
  cases hw : f.writeDraft (picture i) s.files with
  | error e =>
    rw [hw] at hs
    cases hs
    simp [step, h, hw]
  | ok drafted =>
    have hdraft : step f picture s i = s.put i drafted .drafted := by
      simp only [step, h, hw]
    simp only [hw] at hs
    rw [hdraft]
    cases hp : f.publish drafted with
    | error e =>
      rw [hp] at hs
      cases hs
      simp [step, hp, put_put]
    | ok files =>
      rw [hp] at hs
      cases hs
      simp [step, hp, put_put]

/-- What a step of one save does where a file can be put at both places. -/
inductive Taken (f : SnapshotFile) (picture : ι → Snapshot) (dir : FileSystem.Place) (name : Bytes)
    (s : Saves ι) (i : ι) : Saves ι → Prop
  | call (h : s.stage i = .waiting) : Taken f picture dir name s i (s.put i s.files .called)
  | draft (h : s.stage i = .called) : Taken f picture dir name s i
      (s.put i (s.files.insert (dir ++ [draftName name]) (.file (picture i).toJson)) .drafted)
  /-- Another save has moved the draft away. -/
  | miss (h : s.stage i = .drafted) (hq : s.files.lookup (dir ++ [draftName name]) = none) :
      Taken f picture dir name s i
        (s.put i s.files (.ended (.error (.fault f.path .notFound))))
  | publish {content : Bytes} (h : s.stage i = .drafted)
      (hq : s.files.lookup (dir ++ [draftName name]) = some (.file content)) :
      Taken f picture dir name s i (s.put i ((s.files.erase (dir ++ [draftName name])).insert
        (dir ++ [name]) (.file content)) (.ended (.ok ())))
  | stay {r : Except StoreError Unit} (h : s.stage i = .ended r) : Taken f picture dir name s i s

theorem taken_step (h : Places f s.files dir name) (picture : ι → Snapshot) (i : ι) :
    Taken f picture dir name s i (step f picture s i) := by
  unfold step
  split
  · rename_i hi
    exact .call hi
  · rename_i hi
    have hw : f.writeDraft (picture i) s.files = .ok _ := mapError_eq_ok_iff.2 (h.write_eq _)
    rw [hw]
    exact .draft hi
  · rename_i hi
    match hq : s.files.lookup (dir ++ [draftName name]) with
    | none =>
      have hp : f.publish s.files = .error (.fault f.path .notFound) := by
        rw [publish, h.rename_of_none hq]
        rfl
      rw [hp]
      exact .miss hi hq
    | some (.file content) =>
      have hp : f.publish s.files = .ok _ := mapError_eq_ok_iff.2 (h.rename_eq hq)
      rw [hp]
      exact .publish hi hq
    | some .directory => exact absurd hq h.draft_free
  · rename_i hi
    exact .stay hi

theorem Taken.places {s' : Saves ι} (ht : Taken f picture dir name s i s')
    (h : Places f s.files dir name) : Places f s'.files dir name := by
  cases ht with
  | call => exact h
  | draft => exact h.insert _
  | miss => exact h
  | publish => exact h.moved _
  | stay => exact h

theorem Taken.stage_of_ne {s' : Saves ι} (ht : Taken f picture dir name s i s') (h : j ≠ i) :
    s'.stage j = s.stage j := by
  cases ht with
  | stay => rfl
  | call | draft | miss | publish => exact stage_put_of_ne h ..

theorem Taken.keeps {s' : Saves ι} {a : Stage} (ht : Taken f picture dir name s i s')
    (hj : s.stage j = a) (hi : s.stage i ≠ a) : s'.stage j = a := by
  rw [ht.stage_of_ne, hj]
  rintro rfl
  exact hi hj

theorem Taken.kept {s' : Saves ι} {a : Stage} (ht : Taken f picture dir name s i s')
    (hj : s'.stage j = a) (hi : s'.stage i ≠ a) : s.stage j = a := by
  rw [← ht.stage_of_ne, hj]
  rintro rfl
  exact hi hj

theorem run_induction {P : Saves ι → Prop} (hp : Places f s.files dir name) (h : P s)
    (hstep : ∀ s s' i, Taken f picture dir name s i s' → P s → P s') (order : List ι) :
    Places f (run f picture s order).files dir name ∧ P (run f picture s order) := by
  induction order generalizing s with
  | nil => exact ⟨hp, h⟩
  | cons i order ih =>
    have ht := taken_step hp picture i
    exact ih (ht.places hp) (hstep s _ i ht h)

def FailsByMiss (f : SnapshotFile) (s : Saves ι) : Prop :=
  ∀ i r, s.stage i = .ended r → r = .ok () ∨ r = .error (.fault f.path .notFound)

theorem FailsByMiss.taken {s' : Saves ι} (h : FailsByMiss f s)
    (ht : Taken f picture dir name s i s') : FailsByMiss f s' := by
  intro j r hr
  by_cases hji : j = i
  · subst hji
    cases ht with
    | stay => exact h j r hr
    | call | draft => simp at hr
    | miss =>
      rw [stage_put_self] at hr
      cases hr
      exact .inr rfl
    | publish =>
      rw [stage_put_self] at hr
      cases hr
      exact .inl rfl
  · rw [ht.stage_of_ne hji] at hr
    exact h j r hr

/-- What is at the two places: whole pictures, unless it was there before. -/
structure Holds (picture : ι → Snapshot) (fs : FileSystem) (dir : FileSystem.Place) (name : Bytes)
    (s : Saves ι) : Prop where
  path : s.files.lookup (dir ++ [name]) = fs.lookup (dir ++ [name]) ∨
    ∃ j, s.files.lookup (dir ++ [name]) = some (.file (picture j).toJson)
  draft : (∃ j, s.stage j = .drafted) → ∀ content,
    s.files.lookup (dir ++ [draftName name]) = some (.file content) →
      ∃ j, content = (picture j).toJson

theorem Holds.taken {s' : Saves ι} (h : Holds picture fs dir name s)
    (ht : Taken f picture dir name s i s') : Holds picture fs dir name s' := by
  have hback : ∀ {j : ι} {a : Stage}, s'.stage j = a → s'.stage i ≠ a → s.stage j = a :=
    fun hj hi => ht.kept hj hi
  cases ht with
  | stay => exact h
  | call hi =>
    exact ⟨h.path, fun ⟨j, hj⟩ => h.draft ⟨j, hback hj (by simp)⟩⟩
  | draft hi =>
    refine ⟨?_, fun _ content hc => ⟨i, ?_⟩⟩
    · rw [files_put, lookup_path_written]
      exact h.path
    · rw [files_put, lookup_draft_written] at hc
      cases hc
      rfl
  | miss hi hq =>
    refine ⟨h.path, fun _ content hc => ?_⟩
    cases hq.symm.trans hc
  | publish hi hq =>
    obtain ⟨j, rfl⟩ := h.draft ⟨i, hi⟩ _ hq
    refine ⟨.inr ⟨j, ?_⟩, fun _ content hc => ?_⟩
    · rw [files_put, lookup_path_moved]
    · rw [files_put, lookup_draft_moved] at hc
      cases hc

theorem Taken.rank_le {s' : Saves ι} (ht : Taken f picture dir name s i s') (j : ι) :
    (s.stage j).rank ≤ (s'.stage j).rank := by
  cases ht with
  | stay => exact Nat.le_refl _
  | call hi | draft hi | miss hi | publish hi =>
    rw [stage_put]
    split
    · rename_i hj
      rw [hj, hi]
      simp [Stage.rank]
    · exact Nat.le_refl _

/-- Since `before`, when the save `i` was called, this one has not written its draft yet, or the
draft or else the file holds the picture of a save that had not written its draft before either. -/
structure Pending (picture : ι → Snapshot) (dir : FileSystem.Place) (name : Bytes)
    (before : Saves ι) (i : ι) (s : Saves ι) : Prop where
  grows : ∀ j, (before.stage j).rank ≤ (s.stage j).rank
  next : s.stage i = .called ∨ ∃ j, (before.stage j).rank ≤ 1 ∧
    ((s.stage j = .drafted ∧
        s.files.lookup (dir ++ [draftName name]) = some (.file (picture j).toJson)) ∨
      (2 ≤ (s.stage j).rank ∧ s.files.lookup (dir ++ [draftName name]) = none ∧
        s.files.lookup (dir ++ [name]) = some (.file (picture j).toJson)))

theorem Pending.taken {before s' : Saves ι} {k : ι} (h : Pending picture dir name before k s)
    (ht : Taken f picture dir name s i s') : Pending picture dir name before k s' := by
  have hrank := ht.rank_le
  refine ⟨fun j => Nat.le_trans (h.grows j) (hrank j), ?_⟩
  have hgrows := h.grows i
  have hkeep : ∀ {j : ι} {a : Stage}, s.stage j = a → s.stage i ≠ a → s'.stage j = a :=
    fun hj hi => ht.keeps hj hi
  cases ht with
  | stay => exact h.next
  | call hi =>
    rcases h.next with hk | ⟨j, hj, ⟨hs, hd⟩ | ⟨hs, hd⟩⟩
    · exact .inl (hkeep hk (by simp [hi]))
    · exact .inr ⟨j, hj, .inl ⟨hkeep hs (by simp [hi]), hd⟩⟩
    · exact .inr ⟨j, hj, .inr ⟨Nat.le_trans hs (hrank j), hd⟩⟩
  | draft hi =>
    rw [hi] at hgrows
    exact .inr ⟨i, hgrows, .inl ⟨stage_put_self .., lookup_draft_written ..⟩⟩
  | miss hi hq =>
    rcases h.next with hk | ⟨j, hj, ⟨-, hd⟩ | ⟨hs, hd⟩⟩
    · exact .inl (hkeep hk (by simp [hi]))
    · cases hd.symm.trans hq
    · exact .inr ⟨j, hj, .inr ⟨Nat.le_trans hs (hrank j), hd⟩⟩
  | publish hi hq =>
    rcases h.next with hk | ⟨j, hj, ⟨hs, hd⟩ | ⟨-, hd, -⟩⟩
    · exact .inl (hkeep hk (by simp [hi]))
    · cases hd.symm.trans hq
      have hs : 2 ≤ (s.stage j).rank := hs ▸ Nat.le_refl 2
      exact .inr ⟨j, hj, .inr ⟨Nat.le_trans hs (hrank j), lookup_draft_moved ..,
        lookup_path_moved ..⟩⟩
    · cases hd.symm.trans hq

/-- Two saves have written their drafts, or one has and the draft is gone, or a save has failed. -/
def Doomed (dir : FileSystem.Place) (name : Bytes) (s : Saves ι) : Prop :=
  (∃ i j, i ≠ j ∧ s.stage i = .drafted ∧ s.stage j = .drafted) ∨
    (s.files.lookup (dir ++ [draftName name]) = none ∧ ∃ i, s.stage i = .drafted) ∨
      ∃ i e, s.stage i = .ended (.error e)

theorem Doomed.taken {s' : Saves ι} (h : Doomed dir name s)
    (ht : Taken f picture dir name s i s') : Doomed dir name s' := by
  have hkeep : ∀ {j : ι} {a : Stage}, s.stage j = a → s.stage i ≠ a → s'.stage j = a :=
    fun hj hi => ht.keeps hj hi
  cases ht with
  | stay => exact h
  | call hi =>
    rcases h with ⟨j, k, hjk, hj, hk⟩ | ⟨hq, j, hj⟩ | ⟨j, e, hj⟩
    · exact .inl ⟨j, k, hjk, hkeep hj (by simp [hi]), hkeep hk (by simp [hi])⟩
    · exact .inr (.inl ⟨hq, j, hkeep hj (by simp [hi])⟩)
    · exact .inr (.inr ⟨j, e, hkeep hj (by simp [hi])⟩)
  | draft hi =>
    rcases h with ⟨j, k, hjk, hj, hk⟩ | ⟨hq, j, hj⟩ | ⟨j, e, hj⟩
    · exact .inl ⟨j, k, hjk, hkeep hj (by simp [hi]), hkeep hk (by simp [hi])⟩
    · refine .inl ⟨j, i, ?_, hkeep hj (by simp [hi]), stage_put_self ..⟩
      rintro rfl
      cases hj.symm.trans hi
    · exact .inr (.inr ⟨j, e, hkeep hj (by simp [hi])⟩)
  | miss hi hq => exact .inr (.inr ⟨i, _, stage_put_self ..⟩)
  | publish hi hq =>
    rcases h with ⟨j, k, hjk, hj, hk⟩ | ⟨hq', -⟩ | ⟨j, e, hj⟩
    · -- The draft that is moved was the last one, and at most one of the two has moved it.
      refine .inr (.inl ⟨lookup_draft_moved .., ?_⟩)
      by_cases hji : j = i
      · exact ⟨k, (stage_put_of_ne (hji ▸ hjk.symm) ..).trans hk⟩
      · exact ⟨j, (stage_put_of_ne hji ..).trans hj⟩
    · cases hq'.symm.trans hq
    · exact .inr (.inr ⟨j, e, hkeep hj (by simp [hi])⟩)

/-- No save has failed, and one that has written its draft finds it. -/
structure Serial (dir : FileSystem.Place) (name : Bytes) (s : Saves ι) : Prop where
  ok : ∀ i r, s.stage i = .ended r → r = .ok ()
  draft : ∀ i, s.stage i = .drafted → s.files.lookup (dir ++ [draftName name]) ≠ none

theorem Serial.taken {s' : Saves ι} (h : Serial dir name s)
    (hone : ∀ i j, s.stage i = .drafted → s.stage j = .drafted → i = j)
    (ht : Taken f picture dir name s i s') : Serial dir name s' := by
  have hback : ∀ {j : ι} {a : Stage}, s'.stage j = a → s'.stage i ≠ a → s.stage j = a :=
    fun hj hi => ht.kept hj hi
  cases ht with
  | stay => exact h
  | call hi =>
    exact ⟨fun j r hj => h.ok j r (hback hj (by simp)), fun j hj => h.draft j (hback hj (by simp))⟩
  | draft hi =>
    refine ⟨fun j r hj => h.ok j r (hback hj (by simp)), fun j hj => ?_⟩
    rw [files_put, lookup_draft_written]
    nofun
  | miss hi hq => exact absurd hq (h.draft i hi)
  | publish hi hq =>
    refine ⟨fun j r hj => ?_, fun j hj => ?_⟩
    · rw [stage_put] at hj
      split at hj
      · cases hj
        rfl
      · exact h.ok j r hj
    · rw [stage_put] at hj
      split at hj
      · cases hj
      · rename_i hji
        exact absurd (hone j i hj hi) hji

theorem places_run (hp : Places f s.files dir name) (picture : ι → Snapshot) (order : List ι) :
    Places f (run f picture s order).files dir name :=
  (run_induction (P := fun _ => True) hp trivial (fun _ _ _ _ h => h) order).1

/-- No save fails while at most one at a time has written its draft. -/
theorem serial_run (hp : Places f fs dir name) {order : List ι}
    (hone : ∀ before, before <+: order → ∀ i j,
      (run f picture (start fs) before).stage i = .drafted →
        (run f picture (start fs) before).stage j = .drafted → i = j) :
    Serial dir name (run f picture (start fs) order) := by
  induction order using List.reverseRecOn with
  | nil => exact ⟨nofun, nofun⟩
  | append_singleton order i ih =>
    have hpre : order <+: order ++ [i] := List.prefix_append order [i]
    have hs := ih fun before hb => hone before (hb.trans hpre)
    rw [run_append]
    exact hs.taken (hone order hpre) (taken_step (places_run hp picture order) picture i)

/-- A save fails if two have written their drafts at the same time. -/
theorem exists_failed (hp : Places f s.files dir name) (hd : Doomed dir name s) (order : List ι)
    (hend : ∀ i, ((run f picture s order).stage i).isUnderWay = false) :
    ∃ i e, (run f picture s order).stage i = .ended (.error e) := by
  have hnone : ∀ i, (run f picture s order).stage i ≠ .drafted := by
    intro i hi
    have := hend i
    simp [hi, Stage.isUnderWay] at this
  rcases (run_induction hp hd (fun _ _ _ ht h => h.taken ht) order).2 with
    ⟨i, -, -, hi, -⟩ | ⟨-, i, hi⟩ | h
  · exact absurd hi (hnone i)
  · exact absurd hi (hnone i)
  · exact h

/-- When a save has been called and no other one is called after it, the file holds in the end the
picture of a save that had been called by then and had not written its draft. -/
theorem exists_last (hp : Places f s.files dir name) (hi : s.stage i = .called) (order : List ι)
    (hend : ∀ j, s.stage j = .called → ((run f picture s order).stage j).isUnderWay = false)
    (hlast : ∀ j, s.stage j = .waiting → (run f picture s order).stage j = .waiting) :
    ∃ j, s.stage j = .called ∧
      (run f picture s order).files.read f.path = .ok (picture j).toJson := by
  have hstart : Pending picture dir name s i s := ⟨fun _ => Nat.le_refl _, .inl hi⟩
  obtain ⟨hplaces, -, hnext⟩ :=
    run_induction hp hstart (fun _ _ _ ht h => h.taken ht) order
  have hcalled : ∀ j, (s.stage j).rank ≤ 1 → 2 ≤ ((run f picture s order).stage j).rank →
      s.stage j = .called := by
    intro j hj hr
    have hl := hlast j
    cases hs : s.stage j with
    | waiting => simp [hl hs, Stage.rank] at hr
    | called => rfl
    | drafted => simp [hs, Stage.rank] at hj
    | ended r => simp [hs, Stage.rank] at hj
  rcases hnext with hc | ⟨j, hj, ⟨hd, -⟩ | ⟨hr, -, hd⟩⟩
  · have := hend i hi
    simp [hc, Stage.isUnderWay] at this
  · have := hend j (hcalled j hj (hd ▸ Nat.le_refl 2))
    simp [hd, Stage.isUnderWay] at this
  · exact ⟨j, hcalled j hj hr, FileSystem.read_of_lookup hplaces.path rfl hd⟩

theorem stage_step_of_ne (h : j ≠ i) : (step f picture s i).stage j = s.stage j := by
  unfold step
  split
  · exact stage_put_of_ne h ..
  · split <;> exact stage_put_of_ne h ..
  · split <;> exact stage_put_of_ne h ..
  · rfl

theorem sameDirectories_step (f : SnapshotFile) (picture : ι → Snapshot) (s : Saves ι) (i : ι) :
    s.files.SameDirectories (step f picture s i).files := by
  unfold step
  split
  · exact .refl _
  · split
    · exact .refl _
    · rename_i hw
      exact FileSystem.sameDirectories_of_write (mapError_eq_ok_iff.1 hw)
  · split
    · exact .refl _
    · rename_i hp
      exact FileSystem.sameDirectories_of_rename (mapError_eq_ok_iff.1 hp)
  · exact .refl _

/-- What a save has found out about the places that it writes to. -/
structure Found (f : SnapshotFile) (fs : FileSystem) (s : Saves ι) (i : ι) : Prop where
  same : fs.SameDirectories s.files
  drafted : s.stage i = .drafted → fs.CanHold f.draftPath
  ended : s.stage i = .ended (.ok ()) → fs.CanHold f.draftPath ∧ fs.CanHold f.path

theorem Found.step (h : Found f fs s i) (picture : ι → Snapshot) (j : ι) :
    Found f fs (step f picture s j) i := by
  have hsame := h.same.trans (sameDirectories_step f picture s j)
  have hback : ∀ {path}, s.files.CanHold path → fs.CanHold path :=
    fun hc => hc.of_keepsDirectories h.same.2 h.same.1
  by_cases hij : i = j
  · subst hij
    cases hs : s.stage i with
    | waiting =>
      have hst : (Saves.step f picture s i).stage i = .called := by simp [Saves.step, hs]
      exact ⟨hsame, by simp [hst], by simp [hst]⟩
    | called =>
      cases hw : f.writeDraft (picture i) s.files with
      | error e =>
        have hst : (Saves.step f picture s i).stage i = .ended (.error e) := by
          simp [Saves.step, hs, hw]
        exact ⟨hsame, by simp [hst], by simp [hst]⟩
      | ok files =>
        have hst : (Saves.step f picture s i).stage i = .drafted := by simp [Saves.step, hs, hw]
        have hd := FileSystem.exists_write_iff.1 ⟨files, mapError_eq_ok_iff.1 hw⟩
        exact ⟨hsame, fun _ => hback hd, by simp [hst]⟩
    | drafted =>
      cases hp : f.publish s.files with
      | error e =>
        have hst : (Saves.step f picture s i).stage i = .ended (.error e) := by
          simp [Saves.step, hs, hp]
        exact ⟨hsame, by simp [hst], by simp [hst]⟩
      | ok files =>
        obtain ⟨-, new, -, -, hn, -, -, hsn, hdn, -⟩ :=
          FileSystem.rename_eq_ok_iff.1 (mapError_eq_ok_iff.1 hp)
        exact ⟨hsame, fun _ => h.drafted hs, fun _ => ⟨h.drafted hs, hback ⟨new, hn, hsn, hdn⟩⟩⟩
    | ended r =>
      have hst : Saves.step f picture s i = s := by simp [Saves.step, hs]
      rw [hst]
      exact h
  · have hst : (Saves.step f picture s j).stage i = s.stage i := stage_step_of_ne hij
    exact ⟨hsame, fun hs => h.drafted (hst ▸ hs), fun hs => h.ended (hst ▸ hs)⟩

theorem canHold_of_ended (hi : s.stage i = .called) (order : List ι)
    (hok : (run f picture s order).stage i = .ended (.ok ())) :
    s.files.CanHold f.draftPath ∧ s.files.CanHold f.path := by
  have hrun : ∀ {t : Saves ι} (order : List ι), Found f s.files t i →
      Found f s.files (run f picture t order) i := by
    intro t order
    induction order generalizing t with
    | nil => exact fun ht => ht
    | cons j order ih => exact fun ht => ih (ht.step picture j)
  exact (hrun order ⟨.refl _, by simp [hi], by simp [hi]⟩).ended hok

theorem exists_draft_step (hp : Places f s.files dir name) (hi : s.stage i = .called)
    (order : List ι) (hr : 2 ≤ ((run f picture s order).stage i).rank) :
    ∃ before after, order = before ++ i :: after ∧ (run f picture s before).stage i = .called ∧
      2 ≤ ((run f picture s (before ++ [i])).stage i).rank := by
  induction order generalizing s with
  | nil => simp [run, hi, Stage.rank] at hr
  | cons j order ih =>
    have ht := taken_step hp picture j
    by_cases hc : (step f picture s j).stage i = .called
    · obtain ⟨before, after, rfl, hb, ha⟩ := ih (ht.places hp) hc hr
      exact ⟨j :: before, after, rfl, hb, ha⟩
    · obtain rfl : i = j := by
        by_contra hij
        exact hc ((ht.stage_of_ne hij).trans hi)
      refine ⟨[], order, rfl, hi, ?_⟩
      have hle := ht.rank_le i
      rw [hi] at hle
      change 2 ≤ ((step f picture s i).stage i).rank
      cases hst : (step f picture s i).stage i with
      | waiting => simp [hst, Stage.rank] at hle
      | called => exact absurd hst hc
      | drafted => exact Nat.le_refl 2
      | ended r => exact Nat.le_succ 2

theorem step_of_called (hp : Places f s.files dir name) (hi : s.stage i = .called) :
    step f picture s i =
      s.put i (s.files.insert (dir ++ [draftName name]) (.file (picture i).toJson)) .drafted := by
  have ht := taken_step hp picture i
  generalize step f picture s i = t at ht ⊢
  cases ht with
  | draft => rfl
  | call h | miss h | publish h | stay h => cases hi.symm.trans h

/-- A draft holds a picture, and the file holds one too once the save `i` has succeeded. -/
structure Published (picture : ι → Snapshot) (dir : FileSystem.Place) (name : Bytes) (i : ι)
    (s : Saves ι) : Prop where
  draft : ∀ content, s.files.lookup (dir ++ [draftName name]) = some (.file content) →
    ∃ j, content = (picture j).toJson
  path : s.stage i = .ended (.ok ()) →
    ∃ j, s.files.lookup (dir ++ [name]) = some (.file (picture j).toJson)

theorem Published.taken {s' : Saves ι} {k : ι} (h : Published picture dir name k s)
    (ht : Taken f picture dir name s i s') : Published picture dir name k s' := by
  have hback : s'.stage k = .ended (.ok ()) → s'.stage i ≠ .ended (.ok ()) →
      s.stage k = .ended (.ok ()) := fun hk hi => ht.kept hk hi
  cases ht with
  | stay => exact h
  | call hi => exact ⟨h.draft, fun hk => h.path (hback hk (by simp))⟩
  | draft hi =>
    refine ⟨fun content hc => ⟨i, ?_⟩, fun hk => ?_⟩
    · rw [files_put, lookup_draft_written] at hc
      cases hc
      rfl
    · rw [files_put, lookup_path_written]
      exact h.path (hback hk (by simp))
  | miss hi hq => exact ⟨h.draft, fun hk => h.path (hback hk (by simp))⟩
  | publish hi hq =>
    obtain ⟨j, rfl⟩ := h.draft _ hq
    refine ⟨fun content hc => ?_, fun _ => ⟨j, lookup_path_moved ..⟩⟩
    rw [files_put, lookup_draft_moved] at hc
    cases hc

/-- A save that was called and has succeeded leaves a picture in the file, whatever the others have
done since, and whether they have ended or not. -/
theorem exists_read_of_ended (hp : Places f s.files dir name) (hi : s.stage i = .called)
    (order : List ι) (hok : (run f picture s order).stage i = .ended (.ok ())) :
    ∃ j, (run f picture s order).files.read f.path = .ok (picture j).toJson := by
  obtain ⟨before, after, rfl, hc, -⟩ := exists_draft_step hp hi order (by
    rw [hok]
    exact Nat.le_succ 2)
  rw [run_append] at hok ⊢
  have hplaces := places_run hp picture before
  have hstart : Published picture dir name i (step f picture (run f picture s before) i) := by
    rw [step_of_called hplaces hc]
    refine ⟨fun content hd => ⟨i, ?_⟩, fun hk => ?_⟩
    · rw [files_put, lookup_draft_written] at hd
      cases hd
      rfl
    · rw [stage_put_self] at hk
      cases hk
  obtain ⟨hplaces', hend⟩ := run_induction ((taken_step hplaces picture i).places hplaces) hstart
    (fun _ _ _ ht h => h.taken ht) after
  obtain ⟨j, hj⟩ := hend.path hok
  exact ⟨j, FileSystem.read_of_lookup hplaces'.path rfl hj⟩

theorem read_of_run (hp : Places f fs dir name) (picture : ι → Snapshot) (order : List ι) :
    (run f picture (start fs) order).files.read f.path = fs.read f.path ∨
      ∃ i, (run f picture (start fs) order).files.read f.path = .ok (picture i).toJson := by
  have hstart : Holds picture fs dir name (start fs) := ⟨.inl rfl, nofun⟩
  obtain ⟨hplaces, hpath, -⟩ := run_induction hp hstart (fun _ _ _ ht h => h.taken ht) order
  refine hpath.imp (fun he => ?_) fun ⟨i, hi⟩ => ?_
  · simp only [FileSystem.read, hplaces.path, hp.path, he]
  · exact ⟨i, FileSystem.read_of_lookup hplaces.path rfl hi⟩

/-- Saves to one file in any order of their steps, where a file can be put at both places. The file
holds a whole picture at every moment, or what it held before. When all saves that were called have
ended, those that failed found no draft, none has failed exactly if no two had written their drafts
at the same time, and the file holds the picture of a save that was under way, with its draft not
written yet, when the last one was called. -/
theorem overlapping_saves (f : SnapshotFile) (picture : ι → Snapshot) (fs : FileSystem)
    (hd : fs.CanHold f.draftPath) (hp : fs.CanHold f.path) (order : List ι)
    (hend : ∀ i, ((run f picture (start fs) order).stage i).isUnderWay = false) :
    (∀ before, before <+: order →
        (run f picture (start fs) before).files.read f.path = fs.read f.path ∨
          ∃ i, (run f picture (start fs) before).files.read f.path = .ok (picture i).toJson) ∧
      (∀ i r, (run f picture (start fs) order).stage i = .ended r →
        r = .ok () ∨ r = .error (.fault f.path .notFound)) ∧
      ((∀ i r, (run f picture (start fs) order).stage i = .ended r → r = .ok ()) ↔
        ∀ before, before <+: order → ∀ i j,
          (run f picture (start fs) before).stage i = .drafted →
            (run f picture (start fs) before).stage j = .drafted → i = j) ∧
      ∀ before i, before <+: order → (run f picture (start fs) before).stage i = .called →
        (∀ j, (run f picture (start fs) before).stage j = .waiting →
          (run f picture (start fs) order).stage j = .waiting) →
            ∃ j, (run f picture (start fs) before).stage j = .called ∧
              (run f picture (start fs) order).files.read f.path = .ok (picture j).toJson := by
  obtain ⟨dir, name, hplaces, -⟩ := exists_places hd hp
  refine ⟨fun before _ => read_of_run hplaces picture before, ?_, ⟨?_, ?_⟩, ?_⟩
  · have hstart : FailsByMiss f (start fs : Saves ι) := nofun
    exact (run_induction hplaces hstart (fun _ _ _ ht h => h.taken ht) order).2
  · rintro hok before ⟨rest, rfl⟩ i j hi hj
    by_contra hij
    rw [run_append] at hok hend
    obtain ⟨k, e, hk⟩ := exists_failed (places_run hplaces picture before)
      (.inl ⟨i, j, hij, hi, hj⟩) rest hend
    cases hok k _ hk
  · exact fun hone => (serial_run hplaces hone).ok
  · rintro before i ⟨rest, rfl⟩ hi hlast
    rw [run_append] at hlast hend ⊢
    exact exists_last (places_run hplaces picture before) hi rest (fun j _ => hend j) hlast

end

/-- Two saves that are called at once, of which one has moved its draft before the other writes. -/
theorem overlapping_saves_two_called :
    let f : SnapshotFile := ⟨Bytes.ofString "/canvas.json"⟩
    let picture : Bool → Snapshot := fun i => if i then ⟨1, 1, [7]⟩ else ⟨1, 1, [5]⟩
    let fs := FileSystem.empty.install f.path (Snapshot.mk 1 1 [29]).toJson
    let order := [false, true, false, false, true, true]
    fs.CanHold f.draftPath ∧ fs.CanHold f.path ∧
      (∀ i, ((run f picture (start fs) order).stage i).isUnderWay = false) ∧
        (∀ before, before <+: order → ∀ i j,
          (run f picture (start fs) before).stage i = .drafted →
            (run f picture (start fs) before).stage j = .drafted → i = j) ∧
        ∃ i, (run f picture (start fs) [false, true]).stage i = .called ∧
          (run f picture (start fs) order).files.read f.path = .ok (picture i).toJson := by
  intro f picture fs order
  have hd : fs.CanHold f.draftPath :=
    ⟨⟨[Bytes.ofString "canvas.json.tmp"], false⟩, by decide +kernel, rfl, by decide +kernel⟩
  have hp : fs.CanHold f.path :=
    ⟨⟨[Bytes.ofString "canvas.json"], false⟩, by decide +kernel, rfl, by decide +kernel⟩
  have hok : ∀ i, (run f picture (start fs) order).stage i = .ended (.ok ()) := by decide +kernel
  have hend : ∀ i, ((run f picture (start fs) order).stage i).isUnderWay = false := by
    intro i
    exact congrArg Stage.isUnderWay (hok i)
  have hcalled : ∀ i, (run f picture (start fs) [false, true]).stage i = .called := by
    decide +kernel
  obtain ⟨-, -, hone, hlast⟩ := overlapping_saves f picture fs hd hp order hend
  refine ⟨hd, hp, hend, hone.1 ?_, ?_⟩
  · intro i r hr
    exact (Stage.ended.inj ((hok i).symm.trans hr)).symm
  · refine hlast [false, true] true ⟨[false, false, true, true], rfl⟩ (hcalled true) ?_
    intro i hi
    exact Stage.noConfusion ((hcalled i).symm.trans hi)

/-- Both drafts are written before the first is moved: the second save finds none and fails, though
the file holds its picture. -/
theorem overlapping_save_fails :
    let f : SnapshotFile := ⟨Bytes.ofString "/canvas.json"⟩
    let picture : Bool → Snapshot := fun i => if i then ⟨1, 1, [7]⟩ else ⟨1, 1, [5]⟩
    let fs := FileSystem.empty.install f.path (Snapshot.mk 1 1 [29]).toJson
    let s := run f picture (start fs) [false, true, false, true, false, true]
    (∀ i, ∃ fs', f.save (picture i) fs = (fs', .ok ())) ∧
      s.stage false = .ended (.ok ()) ∧
        s.stage true = .ended (.error (.fault f.path .notFound)) ∧
          s.files.read f.path = .ok (picture true).toJson := by
  intro f picture fs s
  have hd : fs.CanHold f.draftPath :=
    ⟨⟨[Bytes.ofString "canvas.json.tmp"], false⟩, by decide +kernel, rfl, by decide +kernel⟩
  have hp : fs.CanHold f.path :=
    ⟨⟨[Bytes.ofString "canvas.json"], false⟩, by decide +kernel, rfl, by decide +kernel⟩
  exact ⟨fun i => SnapshotFile.exists_save_iff.2 ⟨hd, hp⟩, by decide +kernel, by decide +kernel,
    by decide +kernel⟩

end Saves
end SharedCanvas
