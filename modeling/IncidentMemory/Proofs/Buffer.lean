import IncidentMemory.Buffer.Basic

/-!
# What the operations of a buffer do

A write that has begun to wait is either granted a slot or still without one;
`Buffer.pending` lists the two kinds one after the other. Freeing a slot moves
a write from the one kind to the other and leaves that list as it is, which is
why the operations have short descriptions: a write that ends, however it ends,
is erased from the list, and one that begins to wait is put at its end.

`Buffer.Sound` is what the operations preserve: no ticket occurs twice among the
pending writes, an open buffer conserves its slots, a closed one holds no items.
-/

namespace IncidentMemory.Buffer

variable {α : Type} {b : Buffer α} {t : Ticket} {item : α}

/-- **The writes that wait**: those that were granted a slot, then those that
were not. -/
def pending (b : Buffer α) : List Ticket :=
  b.granted ++ b.waiting

/-- **A buffer in good order.** -/
structure Sound (b : Buffer α) : Prop where
  /-- No write waits twice. -/
  nodup : b.pending.Nodup
  /-- As long as there is a reader the slots are conserved. -/
  conserved : b.closed = false → b.IsConserved
  /-- Without a reader there are no items. -/
  emptied : b.closed = true → b.queue = []

/-- A buffer that has only just been made is in good order. -/
theorem sound_empty (n : Nat) : (empty n : Buffer α).Sound where
  nodup := List.nodup_nil
  conserved := fun _ => ⟨rfl, fun _ => rfl⟩
  emptied := fun h => absurd h Bool.false_ne_true

/-- What is made for a capacity is empty, and open. -/
theorem create_done {capacity : Nat} (h : (create capacity).value = .done b) :
    ∃ n, b = empty n := by
  unfold create at h
  split at h
  · exact ⟨_, (Attempt.done.inj h).symm⟩
  · split at h
    · exact nomatch h
    · exact ⟨_, (Attempt.done.inj h).symm⟩

/-- It has as many slots as it was to have, or the usual number if it was to have none. -/
theorem capacity_of_create {capacity : Nat} (h : (create capacity).value = .done b) :
    b.capacity = if capacity = 0 then defaultBufferCapacity else capacity := by
  unfold create at h
  split at h
  · next hzero => rw [if_pos hzero, ← Attempt.done.inj h, empty]
  · next hpos =>
    split at h
    · exact nomatch h
    · rw [if_neg hpos, ← Attempt.done.inj h, empty]

/-! ## Freeing a slot -/

@[simp] theorem pending_release (b : Buffer α) : b.release.pending = b.pending := by
  unfold release pending
  cases b.waiting with
  | nil => rfl
  | cons t ts => exact List.append_assoc b.granted [t] ts

@[simp] theorem queue_release (b : Buffer α) : b.release.queue = b.queue := by
  unfold release
  split <;> rfl

@[simp] theorem closed_release (b : Buffer α) : b.release.closed = b.closed := by
  unfold release
  split <;> rfl

@[simp] theorem capacity_release (b : Buffer α) : b.release.capacity = b.capacity := by
  unfold release
  split <;> rfl

/-- Freeing the one slot that is missing makes the slots add up. -/
theorem isConserved_release (h : b.free + b.granted.length + b.queue.length + 1 = b.capacity)
    (hfree : 0 < b.free → b.waiting = []) : b.release.IsConserved := by
  unfold release
  split
  · next t ts hw =>
    refine ⟨?_, fun hpos => absurd ((hfree hpos).symm.trans hw) (List.cons_ne_nil t ts).symm⟩
    show b.free + (b.granted ++ [t]).length + b.queue.length = b.capacity
    rw [List.length_append, List.length_singleton]
    omega
  · next hw =>
    refine ⟨?_, fun _ => hw⟩
    show b.free + 1 + b.granted.length + b.queue.length = b.capacity
    omega

/-! ## Giving a write up -/

/-- **A write that is given up waits no longer**, and that is all that changes
in the order of the others. -/
@[simp] theorem pending_abandonWrite (b : Buffer α) (t : Ticket) :
    (b.abandonWrite t).pending = b.pending.erase t := by
  unfold abandonWrite
  by_cases h : t ∈ b.granted
  · rw [if_pos h, pending_release]
    exact (List.erase_append_left b.waiting h).symm
  · rw [if_neg h]
    exact (List.erase_append_right b.waiting h).symm

@[simp] theorem queue_abandonWrite (b : Buffer α) (t : Ticket) :
    (b.abandonWrite t).queue = b.queue := by
  unfold abandonWrite
  split
  · exact queue_release _
  · rfl

@[simp] theorem closed_abandonWrite (b : Buffer α) (t : Ticket) :
    (b.abandonWrite t).closed = b.closed := by
  unfold abandonWrite
  split
  · exact closed_release _
  · rfl

@[simp] theorem capacity_abandonWrite (b : Buffer α) (t : Ticket) :
    (b.abandonWrite t).capacity = b.capacity := by
  unfold abandonWrite
  split
  · exact capacity_release _
  · rfl

/-- Giving up a write that does not wait changes nothing. -/
theorem abandonWrite_of_not_mem (h : t ∉ b.pending) : b.abandonWrite t = b := by
  have hout := mt List.mem_append.mpr h
  unfold abandonWrite
  rw [if_neg fun hg => hout (Or.inl hg), List.erase_of_not_mem fun hw => hout (Or.inr hw)]

theorem IsConserved.abandonWrite (h : b.IsConserved) (t : Ticket) :
    (b.abandonWrite t).IsConserved := by
  obtain ⟨hsum, hfree⟩ := h
  unfold Buffer.abandonWrite
  by_cases ht : t ∈ b.granted
  · rw [if_pos ht]
    refine isConserved_release ?_ hfree
    have hpos := List.length_pos_of_mem ht
    show b.free + (b.granted.erase t).length + b.queue.length + 1 = b.capacity
    rw [List.length_erase_of_mem ht]
    omega
  · rw [if_neg ht]
    refine ⟨hsum, fun hpos => ?_⟩
    show b.waiting.erase t = []
    rw [hfree hpos]
    rfl

theorem Sound.abandonWrite (h : b.Sound) (t : Ticket) : (b.abandonWrite t).Sound where
  nodup := by
    rw [pending_abandonWrite]
    exact h.nodup.erase t
  conserved := fun hopen =>
    (h.conserved ((closed_abandonWrite b t).symm.trans hopen)).abandonWrite t
  emptied := fun hclosed => by
    rw [queue_abandonWrite]
    exact h.emptied ((closed_abandonWrite b t).symm.trans hclosed)

/-! ## Looking for a slot -/

/-- An item entered the queue of an open buffer, by a write that does not wait
any longer. -/
structure Accepts (b : Buffer α) (t : Ticket) (item : α) (b' : Buffer α) : Prop where
  /-- There is a reader. -/
  isOpen : b.closed = false
  /-- The item is the last. -/
  queue : b'.queue = b.queue ++ [item]
  /-- The write does not wait. -/
  pending : b'.pending = b.pending.erase t
  /-- The reader is still there. -/
  closed : b'.closed = b.closed
  /-- There are as many slots as before. -/
  capacity : b'.capacity = b.capacity
  /-- The slots are conserved. -/
  conserved : b.IsConserved → b'.IsConserved

/-- A write waits in an open buffer, and may have begun to wait. -/
structure Waits (b : Buffer α) (t : Ticket) (b' : Buffer α) : Prop where
  /-- The queue is the same. -/
  queue : b'.queue = b.queue
  /-- The same writes wait, and possibly this one in addition. -/
  pending : b'.pending = b.pending ∨ t ∉ b.pending ∧ b'.pending = b.pending ++ [t]
  /-- The reader is still there. -/
  closed : b'.closed = b.closed
  /-- There are as many slots as before. -/
  capacity : b'.capacity = b.capacity
  /-- The slots are conserved. -/
  conserved : b.IsConserved → b'.IsConserved

/-- What the queue gains by a write that ends like this. -/
def gained (item : α) : WriteState → List α
  | .accepted => [item]
  | _ => []

/-- **A write that begins adds its item** exactly if it is accepted, whatever the
buffer is like. -/
theorem queue_startWrite (b : Buffer α) (t : Ticket) (item : α) :
    (b.startWrite t item).1.queue = b.queue ++ gained item (b.startWrite t item).2 := by
  unfold startWrite
  split
  · exact (List.append_nil _).symm
  · split
    · rfl
    · exact (List.append_nil _).symm

/-- So does a write that goes on. -/
theorem queue_resumeWrite (b : Buffer α) (t : Ticket) (item : α) :
    (b.resumeWrite t item).1.queue = b.queue ++ gained item (b.resumeWrite t item).2 := by
  unfold resumeWrite
  split
  · exact (queue_abandonWrite b t).trans (List.append_nil _).symm
  · split
    · rfl
    · exact (List.append_nil _).symm

/-- **What may come of a write that looks for a slot.** -/
inductive Settles (b : Buffer α) (t : Ticket) (item : α) : Buffer α × WriteState → Prop
  /-- It had one. -/
  | accepted {b' : Buffer α} (h : b.Accepts t item b') : Settles b t item (b', .accepted)
  /-- There is no reader, and so it is given up. -/
  | closed (h : b.closed = true) : Settles b t item (b.abandonWrite t, .closed)
  /-- It waits. -/
  | pending {b' : Buffer α} (h : b.Waits t b') : Settles b t item (b', .pending)

/-- **A write that begins** has a slot if one is free, and otherwise is the last
of those that wait. -/
theorem settles_startWrite (ht : t ∉ b.pending) (item : α) :
    b.Settles t item (b.startWrite t item) := by
  unfold startWrite
  by_cases hc : b.closed = true
  · rw [if_pos hc]
    have hsame : b.Settles t item (b.abandonWrite t, .closed) := .closed hc
    rw [abandonWrite_of_not_mem ht] at hsame
    exact hsame
  · rw [if_neg hc]
    by_cases hfree : 0 < b.free
    · rw [if_pos hfree]
      refine .accepted ⟨eq_false_of_ne_true hc, rfl, (List.erase_of_not_mem ht).symm, rfl, rfl,
        fun hcons => ?_⟩
      refine ⟨?_, fun _ => hcons.2 hfree⟩
      have hsum := hcons.1
      show b.free - 1 + b.granted.length + (b.queue ++ [item]).length = b.capacity
      rw [List.length_append, List.length_singleton]
      omega
    · rw [if_neg hfree]
      exact .pending ⟨rfl, Or.inr ⟨ht, (List.append_assoc _ _ _).symm⟩, rfl, rfl,
        fun hcons => ⟨hcons.1, fun hpos => absurd hpos hfree⟩⟩

/-- **A write that goes on** has a slot if it was granted one, and otherwise
waits where it is. -/
theorem settles_resumeWrite (b : Buffer α) (t : Ticket) (item : α) :
    b.Settles t item (b.resumeWrite t item) := by
  unfold resumeWrite
  by_cases hc : b.closed = true
  · rw [if_pos hc]
    exact .closed hc
  · rw [if_neg hc]
    by_cases ht : t ∈ b.granted
    · -- its slot turns from a granted one into that of a queued item
      rw [if_pos ht]
      refine .accepted ⟨eq_false_of_ne_true hc, rfl, (List.erase_append_left b.waiting ht).symm,
        rfl, rfl, fun hcons => ⟨?_, hcons.2⟩⟩
      have hpos := List.length_pos_of_mem ht
      have hsum := hcons.1
      show b.free + (b.granted.erase t).length + (b.queue ++ [item]).length = b.capacity
      rw [List.length_append, List.length_singleton, List.length_erase_of_mem ht]
      omega
    · rw [if_neg ht]
      exact .pending ⟨rfl, Or.inl rfl, rfl, rfl, id⟩

theorem Sound.accepts {b' : Buffer α} (h : b.Sound) (ha : b.Accepts t item b') : b'.Sound where
  nodup := by
    rw [ha.pending]
    exact h.nodup.erase t
  conserved := fun _ => ha.conserved (h.conserved ha.isOpen)
  emptied := fun hclosed => by
    rw [ha.closed, ha.isOpen] at hclosed
    exact absurd hclosed Bool.false_ne_true

theorem Sound.waits {b' : Buffer α} (h : b.Sound) (hw : b.Waits t b') : b'.Sound where
  nodup := by
    rcases hw.pending with hsame | ⟨hnew, hadded⟩
    · rw [hsame]
      exact h.nodup
    · rw [hadded]
      refine List.nodup_append.mpr ⟨h.nodup, List.pairwise_singleton _ t, fun a ha c hc => ?_⟩
      rintro rfl
      exact hnew (List.mem_singleton.mp hc ▸ ha)
  conserved := fun hopen => hw.conserved (h.conserved (hw.closed.symm.trans hopen))
  emptied := fun hclosed => by
    rw [hw.queue]
    exact h.emptied (hw.closed.symm.trans hclosed)

/-! ## Reading -/

/-- **Taking the oldest item** leaves the others, and the same writes waiting. -/
theorem take_cons {items : List α} (h : b.queue = item :: items) :
    b.take = (release { b with queue := items }, some item) := by
  unfold take
  rw [h]

/-- There is nothing to take from an empty queue. -/
theorem take_nil (h : b.queue = []) : b.take = (b, none) := by
  unfold take
  rw [h]

theorem Sound.take {items : List α} (h : b.Sound) (hq : b.queue = item :: items) :
    (release { b with queue := items }).Sound := by
  have hopen : b.closed = false := by
    cases hc : b.closed with
    | false => rfl
    | true => exact absurd (hq.symm.trans (h.emptied hc)) (by simp)
  obtain ⟨hsum, hfree⟩ := h.conserved hopen
  refine ⟨?_, fun _ => isConserved_release ?_ hfree, fun hclosed => ?_⟩
  · rw [pending_release]
    exact h.nodup
  · rw [hq, List.length_cons] at hsum
    show b.free + b.granted.length + items.length + 1 = b.capacity
    omega
  · rw [closed_release] at hclosed
    exact absurd (hopen.symm.trans hclosed) Bool.false_ne_true

/-- **When the reader goes** only the granted writes are still remembered. -/
theorem Sound.close (h : b.Sound) : b.close.Sound where
  nodup := by
    show (b.granted ++ []).Nodup
    rw [List.append_nil]
    exact (List.nodup_append.mp h.nodup).1
  conserved := fun hopen => absurd hopen.symm Bool.false_ne_true
  emptied := fun _ => rfl

end IncidentMemory.Buffer
