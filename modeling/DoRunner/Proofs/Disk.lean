import DoRunner.Disk

/-!
# Files on the disk

A path leads through directories only. So a file may be put where no directory is without changing
where any path leads, and what was written to a path is read there (`read_write`, `exists_append`).
Whatever file something is added to, no file loses anything by it (`grows_append`).
-/

namespace DoRunner.Disk

theorem follow_congr {d d' : Disk}
    (same : ∀ place, d'.entryAt place = some .directory ↔ d.entryAt place = some .directory)
    (here : Place) (names : List Text) : d'.follow here names = d.follow here names := by
  induction names generalizing here with
  | nil => rfl
  | cons name names ih =>
    rw [follow, follow]
    by_cases h : d.entryAt here = some .directory
    · rw [if_pos h, if_pos ((same here).mpr h), ih]
    · rw [if_neg h, if_neg fun h' => h ((same here).mp h')]

theorem ne_root_of_free {d : Disk} {place : Place} (free : d.entryAt place ≠ some .directory) :
    place ≠ [] := by
  rintro rfl
  exact free rfl

/-- A file that is put somewhere is in the way of no path. -/
theorem locate_put {d : Disk} {place : Place} (free : d.entryAt place ≠ some .directory)
    (bytes : List UInt8) (path : Text) :
    (d.put place (some (.file bytes))).locate path = d.locate path := by
  have same : ∀ other, (d.put place (some (.file bytes))).entryAt other = some .directory ↔
      d.entryAt other = some .directory := by
    intro other
    by_cases ho : other = place
    · rw [ho, entryAt_put_same d (ne_root_of_free free)]
      exact ⟨fun file => absurd file (by simp), fun directory => absurd directory free⟩
    · rw [entryAt_put_of_ne d ho]
  rw [locate, locate]
  split
  · rfl
  · exact follow_congr same _ _

/-- **A file that is put where a path leads is read there.** -/
theorem read_put {d : Disk} {path : Text} {place : Place} (located : d.locate path = some place)
    (free : d.entryAt place ≠ some .directory) (bytes : List UInt8) :
    (d.put place (some (.file bytes))).read path = some bytes := by
  rw [read, locate_put free, located, Option.bind_some, entryAt_put_same d (ne_root_of_free free)]

/-- A path that leads elsewhere reads what it did. -/
theorem read_put_of_ne {d : Disk} {path : Text} {place : Place}
    (elsewhere : d.locate path ≠ some place) (free : d.entryAt place ≠ some .directory)
    (bytes : List UInt8) : (d.put place (some (.file bytes))).read path = d.read path := by
  rw [read, read, locate_put free]
  cases located : d.locate path with
  | none => rfl
  | some other =>
    have apart : other ≠ place := by
      rintro rfl
      exact elsewhere located
    rw [Option.bind_some, Option.bind_some, entryAt_put_of_ne d apart]

theorem read_write {d d' : Disk} {path : Text} {bytes : List UInt8}
    (h : d.write path bytes = some d') : d'.read path = some bytes := by
  unfold write at h
  split at h
  · exact absurd h (by simp)
  · rename_i place located
    split at h
    · exact absurd h (by simp)
    · rename_i free
      rw [← Option.some.inj h]
      exact read_put located free bytes

/-- **What is added to a file that is there is read after what was in it.** -/
theorem exists_append {d : Disk} {path : Text} {bytes : List UInt8} (h : d.read path = some bytes)
    (more : List UInt8) :
    ∃ d', d.append path more = some d' ∧ d'.read path = some (bytes ++ more) := by
  rw [read] at h
  cases located : d.locate path with
  | none =>
    rw [located] at h
    exact absurd h (by simp)
  | some place =>
    rw [located, Option.bind_some] at h
    have file : d.entryAt place = some (.file bytes) := by
      split at h
      · rename_i found
        rw [found, Option.some.inj h]
      · exact absurd h (by simp)
    refine ⟨d.put place (some (.file (bytes ++ more))), ?_, read_put located ?_ _⟩
    · rw [append, located]
      dsimp only
      rw [file]
    · rw [file]
      simp

/-! ## Adding to files -/

/-- From one disk to another, the file at a path, if it is there, has only been added to. -/
def Grows (path : Text) (d d' : Disk) : Prop :=
  ∀ bytes, d.read path = some bytes → ∃ more, d'.read path = some (bytes ++ more)

theorem Grows.refl (path : Text) (d : Disk) : Grows path d d := by
  intro bytes here
  exact ⟨[], by rw [here, List.append_nil]⟩

theorem Grows.trans {path : Text} {d d₁ d' : Disk} (h : Grows path d d₁) (h' : Grows path d₁ d') :
    Grows path d d' := by
  intro bytes here
  obtain ⟨more, there⟩ := h bytes here
  obtain ⟨rest, after⟩ := h' _ there
  exact ⟨more ++ rest, by rw [after, List.append_assoc]⟩

/-- **Adding to a file takes nothing away,** neither from that file nor from any other. -/
theorem grows_append {d d' : Disk} {other : Text} {added : List UInt8}
    (h : d.append other added = some d') (path : Text) : Grows path d d' := by
  intro bytes here
  rw [append] at h
  cases located : d.locate other with
  | none =>
    rw [located] at h
    exact absurd h (by simp)
  | some place =>
    rw [located] at h
    dsimp only at h
    split at h
    · rename_i earlier file
      obtain rfl := Option.some.inj h
      have free : d.entryAt place ≠ some .directory := by
        rw [file]
        simp
      by_cases same : d.locate path = some place
      · have read : d.read path = some earlier := by
          rw [Disk.read, same, Option.bind_some, file]
        obtain rfl := Option.some.inj (here.symm.trans read)
        exact ⟨added, read_put same free _⟩
      · exact ⟨[], by rw [read_put_of_ne same free, here, List.append_nil]⟩
    · exact absurd h (by simp)

end DoRunner.Disk
