import IncidentMemory.Proofs.Slots

/-!
# What the size of a buffer counts

The size of a buffer is what is missing from its free slots. Nothing looks at the
queue for it. A slot that a read gives back goes at once to the write that has waited
longest, but the item of that write is in the queue only when the write goes on. In
between the slot is neither free nor the slot of an item that could be read.

So the size is one number for two things: the items that were accepted and not
received, and the slots that are held by writes which have not gone on since they were
granted them. Whether those writes will ever go on makes no difference: a write whose
token has fired holds its slot until it is polled or dropped. The size counts what is
waiting to be received exactly in the states in which no slot is held like this
(`Exchange.record_countsWaiting_iff`). It never counts too little.
-/

namespace IncidentMemory

variable {α : Type}

namespace Buffer

/-- A buffer is empty exactly if its size is zero. -/
@[simp] theorem isEmpty_iff {b : Buffer α} : b.isEmpty = true ↔ b.size = 0 :=
  beq_iff_eq

/-- **Of a buffer with a reader the size is made up of queued items and granted slots.** -/
theorem IsConserved.size_eq {b : Buffer α} (h : b.IsConserved) :
    b.size = b.queue.length + b.granted.length := by
  have hsum := h.1
  unfold size
  omega

end Buffer

/-! ## Slots that are held -/

namespace Line

/-- **Whoever has a slot was seen to be granted it**: a step adds to the one what it adds
to the other. -/
theorem granted_subset_served_note {q : Line} {b b' : Buffer α} (h : b.granted ⊆ q.served) :
    b'.granted ⊆ (q.note b b').served := by
  intro t ht
  show t ∈ q.served ++ b'.granted.filter (· ∉ b.granted)
  by_cases hold : t ∈ b.granted
  · exact List.mem_append_left _ (h hold)
  · exact List.mem_append_right _ (List.mem_filter.mpr ⟨ht, decide_eq_true hold⟩)

end Line

namespace Exchange

variable {n : Nat} {x : Exchange α} {l : Ledger α} {q : Line}

theorem granted_subset_served_lineFrom (h : x.buffer.granted ⊆ q.served)
    (steps : List (ExchangeStep α)) :
    (x.recordFrom l steps).1.buffer.granted ⊆ (x.lineFrom q steps).served := by
  induction steps generalizing x l q with
  | nil => exact h
  | cons s ss ih => exact ih (Line.granted_subset_served_note h)

/-- **The writes that hold a slot**: they were granted it while they waited, and still
wait. -/
def holding (x : Exchange α) (q : Line) : List Ticket :=
  q.served.filter fun t => (x.pendingWrite t).isSome

theorem mem_holding {t : Ticket} :
    t ∈ x.holding q ↔ t ∈ q.served ∧ x.pendingWrite t ≠ none := by
  unfold holding
  rw [List.mem_filter, Option.isSome_iff_ne_none]

/-- **They are the writes that the buffer has granted a slot.** -/
theorem Queued.holding_perm (h : Queued x q) (ha : Accounts n x l)
    (hserved : x.buffer.granted ⊆ q.served) : (x.holding q).Perm x.buffer.granted := by
  have hnodup : (q.served ++ x.buffer.waiting).Nodup := by
    rw [← h.inOrder.order]
    exact h.inOrder.nodup.filter _
  obtain ⟨hserve, -, hdisjoint⟩ := List.nodup_append.mp hnodup
  have hgranted := (List.nodup_append.mp ha.sound.nodup).1
  refine (List.perm_ext_iff_of_nodup (hserve.filter _) hgranted).mpr fun t => ?_
  rw [← holding, mem_holding]
  constructor
  · -- who was served is not in line any more, so a write that waits has its slot
    rintro ⟨ht, hwaits⟩
    refine (List.mem_append.mp (h.inLine t hwaits)).resolve_right fun hline => ?_
    exact hdisjoint t ht t hline rfl
  · intro ht
    exact ⟨hserved ht, ha.waits t (List.mem_append_left _ ht)⟩

/-! ## What the size counts -/

/-- **That the size counts what is waiting to be received**, as one would have it. -/
structure CountsWaiting (x : Exchange α) (l : Ledger α) : Prop where
  /-- It is the number of items that were accepted and not received. -/
  size : x.buffer.size = l.undelivered.length
  /-- The buffer is empty exactly if a read finds nothing. -/
  isEmpty_iff : x.buffer.isEmpty = true ↔ (x.step .tryReceive).2 = .got none

/-- **What the size counts**, if slots are held by the given writes. -/
structure CountsSlots (x : Exchange α) (l : Ledger α) (held : List Ticket) : Prop where
  /-- The items that were accepted and not received, and the slots that are held. -/
  size : x.buffer.size = l.undelivered.length + held.length
  /-- The buffer is empty exactly if there are neither. -/
  isEmpty_iff : x.buffer.isEmpty = true ↔ l.undelivered = [] ∧ held = []
  /-- A read finds nothing exactly if there are no such items. -/
  tryReceive_iff : (x.step .tryReceive).2 = .got none ↔ l.undelivered = []

/-- What is waiting is counted exactly if no slots are held. -/
theorem CountsSlots.countsWaiting_iff {held : List Ticket} (h : CountsSlots x l held) :
    CountsWaiting x l ↔ held = [] := by
  constructor
  · intro hcounts
    have hsum := h.size.symm.trans hcounts.size
    exact List.eq_nil_of_length_eq_zero (by omega)
  · rintro rfl
    refine ⟨h.size, h.isEmpty_iff.trans ?_⟩
    rw [h.tryReceive_iff]
    exact and_iff_left rfl

/-- **A read finds nothing exactly if everything that was accepted has been received.** -/
theorem Accounts.tryReceive_iff (h : Accounts n x l) (hreader : x.reader = true) :
    (x.step .tryReceive).2 = .got none ↔ l.undelivered = [] := by
  rw [← List.length_eq_zero_iff, h.length_undelivered hreader, List.length_eq_zero_iff]
  show (x.receive false).2 = .got none ↔ _
  unfold Exchange.receive
  rw [if_pos hreader]
  cases hq : x.buffer.queue with
  | nil =>
    rw [Buffer.take_nil hq]
    exact iff_of_true rfl rfl
  | cons item items =>
    rw [Buffer.take_cons hq]
    exact iff_of_false (fun h => by cases h) (List.cons_ne_nil item items)

/-- **Where the accounts agree and the line is kept**, the size counts slots. -/
theorem Queued.countsSlots (h : Queued x q) (ha : Accounts n x l) (hreader : x.reader = true)
    (hserved : x.buffer.granted ⊆ q.served) : CountsSlots x l (x.holding q) := by
  have hsize : x.buffer.size = l.undelivered.length + (x.holding q).length := by
    rw [(ha.sound.conserved (ha.isOpen_iff.mpr hreader)).size_eq, ha.length_undelivered hreader,
      (h.holding_perm ha hserved).length_eq]
  refine ⟨hsize, ?_, ha.tryReceive_iff hreader⟩
  rw [Buffer.isEmpty_iff, hsize, Nat.add_eq_zero_iff, List.length_eq_zero_iff,
    List.length_eq_zero_iff]

/-- **The size counts the slots that are taken**, in every run over a buffer that was
made, as long as there is a reader: those of the items that were accepted and not
received, and those that are held by writes which have not gone on since they were
granted them. It counts what is waiting to be received exactly if nothing is held. -/
theorem record_countsWaiting_iff (capacity : Nat) (b : Buffer α)
    (hb : (Buffer.create capacity).value = .done b) (steps : List (ExchangeStep α))
    (hreader : (record b steps).1.reader = true) :
    CountsSlots (record b steps).1 (record b steps).2
        ((record b steps).1.holding (line b steps))
      ∧ (CountsWaiting (record b steps).1 (record b steps).2
        ↔ (record b steps).1.holding (line b steps) = []) := by
  obtain ⟨n, rfl⟩ := Buffer.create_done hb
  have hstart := Accounts.start (α := α) n
  have hqueued := (queued_start (Buffer.empty n : Buffer α) rfl).recordFrom hstart hreader
  have hserved : (record (Buffer.empty n) steps).1.buffer.granted
      ⊆ (line (Buffer.empty n) steps).served :=
    granted_subset_served_lineFrom (List.nil_subset _) steps
  have hcounts := hqueued.countsSlots (hstart.recordFrom steps) hreader hserved
  exact ⟨hcounts, hcounts.countsWaiting_iff⟩

/-- A second write waits for the only slot, is granted it, and does not go on although
its token fires. -/
def cancelledUnpolled : List (ExchangeStep String) :=
  [.write 0 0 "first", .write 0 1 "second", .receive, .cancel 1]

/-- The same, and the write goes on after all. -/
def cancelledPolled : List (ExchangeStep String) :=
  cancelledUnpolled ++ [.poll 1]

/-- It holds the slot until it goes on, and is given up then. -/
theorem record_countsWaiting_iff_cancelledUnpolled :
    (Buffer.create 1 : Log.Reported (Attempt (Buffer String))).value = .done (Buffer.empty 1)
      ∧ (record (Buffer.empty 1) cancelledUnpolled).1.reader = true
      ∧ (record (Buffer.empty 1) cancelledUnpolled).1.holding
        (line (Buffer.empty 1) cancelledUnpolled) = [1]
      ∧ CountsSlots (record (Buffer.empty 1) cancelledUnpolled).1
        (record (Buffer.empty 1) cancelledUnpolled).2
        ((record (Buffer.empty 1) cancelledUnpolled).1.holding
          (line (Buffer.empty 1) cancelledUnpolled))
      ∧ CountsWaiting (record (Buffer.empty 1) cancelledPolled).1
        (record (Buffer.empty 1) cancelledPolled).2 :=
  ⟨rfl, rfl, rfl, (record_countsWaiting_iff 1 (Buffer.empty 1) rfl cancelledUnpolled rfl).1,
    (record_countsWaiting_iff 1 (Buffer.empty 1) rfl cancelledPolled rfl).2.mpr rfl⟩

/-- A second write waits for the only slot, and the first item is received. -/
def handedOver : List (ExchangeStep String) :=
  [.write 0 0 "first", .write 0 0 "second", .receive]

/-- **Everything that was accepted has been received, and a read finds nothing**, but the
buffer has a size of one and is not empty. -/
theorem not_countsWaiting_handedOver :
    (Buffer.create 1 : Log.Reported (Attempt (Buffer String))).value = .done (Buffer.empty 1)
      ∧ (record (Buffer.empty 1) handedOver).1.reader = true
      ∧ (record (Buffer.empty 1) handedOver).2.accepted = [0]
      ∧ (record (Buffer.empty 1) handedOver).2.received = ["first"]
      ∧ ((record (Buffer.empty 1) handedOver).1.step .tryReceive).2 = .got none
      ∧ (record (Buffer.empty 1) handedOver).1.buffer.size = 1
      ∧ (record (Buffer.empty 1) handedOver).1.buffer.isEmpty = false
      ∧ ¬ CountsWaiting (record (Buffer.empty 1) handedOver).1
        (record (Buffer.empty 1) handedOver).2 := by
  refine ⟨rfl, rfl, rfl, rfl, rfl, rfl, rfl, fun h => ?_⟩
  have hsize : (record (Buffer.empty 1) handedOver).1.buffer.size = 0 := h.size
  exact Nat.one_ne_zero hsize

end Exchange

end IncidentMemory
