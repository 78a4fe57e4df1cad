import Mathlib.Data.List.Basic
import Mathlib.Logic.Function.Basic

/-!
# Readers–writer locks

A lock that many may hold for reading or one for writing. The lock knows who holds it; `Tracks` ties
that to where its users stand, given as what each of them holds, and every operation keeps the tie.

## Main definitions

* `RWLock`, with `RWLock.rlock`, `RWLock.runlock`, `RWLock.lock` and `RWLock.unlock`; the two that
  can block are partial.
* `RWLock.Tracks` : the lock is held by those who stand where it is held.

## Main results

* `RWLock.Tracks.rlock`, `RWLock.Tracks.runlock`, `RWLock.Tracks.lock`, `RWLock.Tracks.unlock`.
* `RWLock.Tracks.eq_of_writing`, `RWLock.Tracks.not_reading` : a writer is alone.
-/

/-- A readers–writer lock with its holders. -/
structure RWLock (ι : Type*) where
  writer : Option ι
  readers : List ι

namespace RWLock

/-- How one user holds a lock. -/
inductive Hold
  | free
  | reading
  | writing
  deriving DecidableEq

variable {ι : Type*}

/-- A lock that nobody holds. -/
def unheld : RWLock ι := ⟨none, []⟩

/-- Take the lock for reading; it waits for a writer. -/
def rlock (l : RWLock ι) (i : ι) : Option (RWLock ι) :=
  if l.writer = none then some { l with readers := i :: l.readers } else none

def runlock [DecidableEq ι] (l : RWLock ι) (i : ι) : RWLock ι :=
  { l with readers := l.readers.erase i }

/-- Take the lock for writing; it waits for everybody. -/
def lock (l : RWLock ι) (i : ι) : Option (RWLock ι) :=
  if l.writer = none ∧ l.readers = [] then some { l with writer := some i } else none

def unlock (l : RWLock ι) : RWLock ι := { l with writer := none }

theorem rlock_eq_some {l l' : RWLock ι} {i : ι} :
    l.rlock i = some l' ↔ l.writer = none ∧ l' = { l with readers := i :: l.readers } := by
  simp [rlock, eq_comm]

theorem lock_eq_some {l l' : RWLock ι} {i : ι} : l.lock i = some l' ↔
    l.writer = none ∧ l.readers = [] ∧ l' = { l with writer := some i } := by
  simp [lock, and_assoc, eq_comm]

/-- The lock is held by those who stand where it is held, and a writer is alone. -/
structure Tracks (l : RWLock ι) (hold : ι → Hold) : Prop where
  writer_iff : ∀ i, l.writer = some i ↔ hold i = .writing
  mem_readers : ∀ i, i ∈ l.readers ↔ hold i = .reading
  nodup : l.readers.Nodup
  alone : l.writer ≠ none → l.readers = []

namespace Tracks

variable {l l' : RWLock ι} {hold : ι → Hold} {i j : ι}

theorem unheld : (unheld : RWLock ι).Tracks fun _ => .free where
  writer_iff i := by simp [RWLock.unheld]
  mem_readers i := by simp [RWLock.unheld]
  nodup := List.nodup_nil
  alone _ := rfl

/-! ### What the lock says about its users -/

theorem eq_of_writing (h : l.Tracks hold) (hi : hold i = .writing) (hj : hold j = .writing) :
    i = j := by
  have hwi := (h.writer_iff i).mpr hi
  have hwj := (h.writer_iff j).mpr hj
  exact Option.some.inj (hwi.symm.trans hwj)

theorem not_reading (h : l.Tracks hold) (hi : hold i = .writing) (j : ι) : hold j ≠ .reading := by
  intro hj
  have hwi := (h.writer_iff i).mpr hi
  have hnil := h.alone (by rw [hwi]; exact Option.some_ne_none i)
  have hmem := (h.mem_readers j).mpr hj
  rw [hnil] at hmem
  exact List.not_mem_nil hmem

theorem not_writing (h : l.Tracks hold) (hl : l.writer = none) (j : ι) : hold j ≠ .writing := by
  intro hj
  have hwj := (h.writer_iff j).mpr hj
  rw [hl] at hwj
  exact Option.some_ne_none j hwj.symm

/-! ### What the operations do -/

variable [DecidableEq ι]

theorem rlock (h : l.Tracks hold) (hi : hold i = .free) (hl : l.rlock i = some l') :
    l'.Tracks (Function.update hold i .reading) := by
  obtain ⟨hw, rfl⟩ := rlock_eq_some.mp hl
  constructor
  · intro j
    have hj := h.writer_iff j
    rcases eq_or_ne j i with rfl | hne
    · simp [hw]
    · simpa [hne] using hj
  · intro j
    have hj := h.mem_readers j
    rcases eq_or_ne j i with rfl | hne
    · simp
    · simpa [hne] using hj
  · refine List.nodup_cons.mpr ⟨fun hmem => ?_, h.nodup⟩
    have hreading := (h.mem_readers i).mp hmem
    rw [hi] at hreading
    contradiction
  · exact fun hne => absurd hw hne

theorem runlock (h : l.Tracks hold) (hi : hold i = .reading) :
    (l.runlock i).Tracks (Function.update hold i .free) where
  writer_iff j := by
    have hj := h.writer_iff j
    rcases eq_or_ne j i with rfl | hne
    · simpa [RWLock.runlock, hi] using hj
    · simpa [RWLock.runlock, hne] using hj
  mem_readers j := by
    have hj := h.mem_readers j
    rcases eq_or_ne j i with rfl | hne
    · simpa [RWLock.runlock] using h.nodup.not_mem_erase
    · simpa [RWLock.runlock, hne, List.mem_erase_of_ne hne] using hj
  nodup := h.nodup.erase i
  alone hw := by rw [RWLock.runlock, h.alone hw]; rfl

theorem lock (h : l.Tracks hold) (hl : l.lock i = some l') :
    l'.Tracks (Function.update hold i .writing) := by
  obtain ⟨hw, hr, rfl⟩ := lock_eq_some.mp hl
  constructor
  · intro j
    have hj := h.not_writing hw j
    rcases eq_or_ne j i with rfl | hne
    · simp
    · simpa [hne, hne.symm] using hj
  · intro j
    have hj := h.mem_readers j
    rcases eq_or_ne j i with rfl | hne
    · simp [hr]
    · simpa [hne] using hj
  · exact h.nodup
  · exact fun _ => hr

theorem unlock (h : l.Tracks hold) (hi : hold i = .writing) :
    l.unlock.Tracks (Function.update hold i .free) where
  writer_iff j := by
    rcases eq_or_ne j i with rfl | hne
    · simp [RWLock.unlock]
    · have hj : hold j ≠ .writing := fun hj => hne (h.eq_of_writing hj hi)
      simpa [RWLock.unlock, hne] using hj
  mem_readers j := by
    have hj := h.mem_readers j
    rcases eq_or_ne j i with rfl | hne
    · simpa [RWLock.unlock, hi] using hj
    · simpa [RWLock.unlock, hne] using hj
  nodup := h.nodup
  alone hw := absurd rfl hw

end Tracks

end RWLock
