import IncidentMemory.Proofs.Ledger

/-!
# Who is granted a slot

A write that finds no free slot joins a line, and a slot that comes free goes to the
write that joined first of those that are still in it. `Line` notes who joined, who was
granted a slot and who left without one; it sees nothing but the tickets that wait in
the buffer before and after each step.

While there is a reader, two things hold of every run, whatever is cancelled or given
up. The slots are accounted for: those of the items that were accepted and not received,
those that were granted, and those that are free make up the capacity. And the line is
kept: who joined and did not leave is who was granted a slot, in that order, and then
who still waits (`Line.InOrder`). `Exchange.record_sharesFairly` puts both together
with what each step does to a slot.
-/

namespace IncidentMemory

variable {α : Type}

namespace Buffer

variable {b : Buffer α} {n t : Ticket} {ts : List Ticket} {item : α}

/-! ## What becomes of a slot -/

/-- A slot that comes free goes to the head of the line. -/
theorem release_cons (h : b.waiting = t :: ts) :
    b.release = { b with granted := b.granted ++ [t], waiting := ts } := by
  unfold release
  rw [h]

/-- Without a line it stays free. -/
theorem release_nil (h : b.waiting = []) : b.release = { b with free := b.free + 1 } := by
  unfold release
  rw [h]

/-- **A write with a slot that is given up** frees it. -/
theorem abandonWrite_of_granted (h : t ∈ b.granted) :
    b.abandonWrite t = release { b with granted := b.granted.erase t } :=
  if_pos h

/-- A write without a slot leaves the line. -/
theorem abandonWrite_of_not_granted (h : t ∉ b.granted) :
    b.abandonWrite t = { b with waiting := b.waiting.erase t } :=
  if_neg h

section

variable (hopen : b.closed = false)

include hopen

theorem startWrite_of_free (h : 0 < b.free) (t : Ticket) (item : α) :
    b.startWrite t item
      = ({ b with free := b.free - 1, queue := b.queue ++ [item] }, .accepted) := by
  unfold startWrite
  rw [if_neg (by simp [hopen]), if_pos h]
  rfl

theorem startWrite_of_full (h : b.free = 0) (t : Ticket) (item : α) :
    b.startWrite t item = ({ b with waiting := b.waiting ++ [t] }, .pending) := by
  unfold startWrite
  rw [if_neg (by simp [hopen]), if_neg (by omega)]

theorem resumeWrite_of_granted (h : t ∈ b.granted) (item : α) :
    b.resumeWrite t item
      = ({ b with granted := b.granted.erase t, queue := b.queue ++ [item] }, .accepted) := by
  unfold resumeWrite
  rw [if_neg (by simp [hopen]), if_pos h]
  rfl

theorem resumeWrite_of_not_granted (h : t ∉ b.granted) (item : α) :
    b.resumeWrite t item = (b, .pending) := by
  unfold resumeWrite
  rw [if_neg (by simp [hopen]), if_neg h]

end

/-- **What a step may do to the writes that wait**, where `n` is the ticket of the write
that begins next. -/
inductive Changes (n : Ticket) (b b' : Buffer α) : Prop where
  /-- Writes with a slot do not wait any more. -/
  | goes (granted : b'.granted.Sublist b.granted) (waiting : b'.waiting = b.waiting)
  /-- The next write joins the line. -/
  | joins (granted : b'.granted = b.granted) (waiting : b'.waiting = b.waiting ++ [n])
  /-- A write leaves the line. -/
  | leaves (t : Ticket) (mem : t ∈ b.waiting) (granted : b'.granted = b.granted)
      (waiting : b'.waiting = b.waiting.erase t)
  /-- The head of the line is granted a slot. -/
  | serves (t : Ticket) (others : List Ticket) (sublist : others.Sublist b.granted)
      (granted : b'.granted = others ++ [t]) (waiting : b.waiting = t :: b'.waiting)

/-- Nothing changes. -/
theorem Changes.refl (n : Ticket) (b : Buffer α) : b.Changes n b :=
  .goes (List.Sublist.refl _) rfl

theorem changes_release (n : Ticket) {c : Buffer α} (hgranted : c.granted.Sublist b.granted)
    (hwaiting : c.waiting = b.waiting) : b.Changes n c.release := by
  cases hc : c.waiting with
  | nil =>
    rw [release_nil hc]
    exact .goes hgranted hwaiting
  | cons t ts =>
    rw [release_cons hc]
    exact .serves t c.granted hgranted rfl (hwaiting.symm.trans hc)

theorem changes_abandonWrite (n : Ticket) (h : t ∈ b.pending) : b.Changes n (b.abandonWrite t) := by
  by_cases ht : t ∈ b.granted
  · rw [abandonWrite_of_granted ht]
    exact changes_release n List.erase_sublist rfl
  · rw [abandonWrite_of_not_granted ht]
    exact .leaves t ((List.mem_append.mp h).resolve_left ht) rfl rfl

end Buffer

/-! ## The line -/

/-- **What was seen of a line.** -/
structure Line where
  /-- Who joined it, in this order. -/
  joined : List Ticket := []
  /-- Who was granted a slot, in this order. -/
  served : List Ticket := []
  /-- Who left it without one. -/
  left : List Ticket := []

namespace Line

/-- **Notes a step**, by who waits in the buffer before and after it. -/
def note (q : Line) (b b' : Buffer α) : Line where
  joined := q.joined ++ b'.waiting.filter (· ∉ b.waiting)
  served := q.served ++ b'.granted.filter (· ∉ b.granted)
  left := q.left ++ b.waiting.filter (· ∉ b'.pending)

/-- **The line is kept**, if `n` is the ticket of the write that begins next. -/
structure InOrder (n : Ticket) (b : Buffer α) (q : Line) : Prop where
  /-- Who joined and did not leave was granted a slot, or still waits; in that order. -/
  order : q.joined.filter (· ∉ q.left) = q.served ++ b.waiting
  /-- Nobody joins twice. -/
  nodup : q.joined.Nodup
  /-- Everybody has begun to write. -/
  begun : ∀ t ∈ q.joined ++ q.left, t < n

/-- What is new in a list to which new members were added. -/
theorem filter_not_mem_append {s l new : List Ticket} (hs : s ⊆ l) (hnew : ∀ t ∈ new, t ∉ l) :
    (s ++ new).filter (· ∉ l) = new := by
  rw [List.filter_append, List.filter_eq_nil_iff.mpr fun t ht => by simpa using hs ht,
    List.filter_eq_self.mpr fun t ht => by simpa using hnew t ht, List.nil_append]

/-- Nothing is new in a part of a list. -/
theorem filter_not_mem_of_subset {s l : List Ticket} (hs : s ⊆ l) : s.filter (· ∉ l) = [] :=
  List.filter_eq_nil_iff.mpr fun t ht => by simpa using hs ht

variable {q : Line} {n : Ticket} {b b' : Buffer α}

theorem InOrder.mono (h : q.InOrder n b) {m : Ticket} (hle : n ≤ m) : q.InOrder m b :=
  ⟨h.order, h.nodup, fun t ht => Nat.lt_of_lt_of_le (h.begun t ht) hle⟩

/-- Nobody who waits has been granted a slot before. -/
theorem InOrder.not_mem_served (h : q.InOrder n b) {t : Ticket} (ht : t ∈ b.waiting) :
    t ∉ q.served := by
  have hnodup := h.nodup.filter fun t => decide (t ∉ q.left)
  rw [h.order] at hnodup
  exact fun hserved => (List.nodup_append.mp hnodup).2.2 t hserved t ht rfl

section

variable {m : Ticket} {t : Ticket} (h : q.InOrder n b) (hle : n ≤ m)

include h hle

/-- Writes that go and had a slot are not seen to leave. -/
theorem InOrder.goes (hgranted : b'.granted.Sublist b.granted) (hwaiting : b'.waiting = b.waiting) :
    (q.note b b').InOrder m b' := by
  unfold Line.note
  rw [Buffer.pending, hwaiting, filter_not_mem_of_subset (List.Subset.refl _),
    filter_not_mem_of_subset hgranted.subset,
    filter_not_mem_of_subset (List.subset_append_right _ _)]
  simp only [List.append_nil]
  exact ⟨by rw [hwaiting]; exact h.order, h.nodup, (h.mono hle).begun⟩

/-- The next write to begin is the last of those who joined. -/
theorem InOrder.joins (hgranted : b'.granted = b.granted) (hwaiting : b'.waiting = b.waiting ++ [n])
    (hlt : n < m) (hnew : n ∉ b.pending) : (q.note b b').InOrder m b' := by
  have hlast : ∀ t ∈ [n], t ∉ b.waiting := by
    intro t ht hmem
    exact hnew (List.mem_append_right _ (List.mem_singleton.mp ht ▸ hmem))
  have hfresh : n ∉ q.joined ++ q.left := fun hmem => Nat.lt_irrefl _ (h.begun n hmem)
  rw [List.mem_append, not_or] at hfresh
  unfold Line.note
  rw [Buffer.pending, hwaiting, hgranted, filter_not_mem_append (List.Subset.refl _) hlast,
    filter_not_mem_of_subset (List.Subset.refl _),
    filter_not_mem_of_subset fun t ht => by simp [ht]]
  simp only [List.append_nil]
  refine ⟨?_, ?_, ?_⟩
  · have hkeeps : [n].filter (· ∉ q.left) = [n] := by simp [hfresh.2]
    rw [List.filter_append, h.order, hkeeps, hwaiting, List.append_assoc]
  · refine List.nodup_append.mpr ⟨h.nodup, List.pairwise_singleton _ n, fun t ht u hu => ?_⟩
    rintro rfl
    exact hfresh.1 (List.mem_singleton.mp hu ▸ ht)
  · intro t ht
    rw [List.append_assoc, List.mem_append, List.mem_append, List.mem_singleton] at ht
    rcases ht with ht | rfl | ht
    · exact (h.mono hle).begun t (List.mem_append_left _ ht)
    · exact hlt
    · exact (h.mono hle).begun t (List.mem_append_right _ ht)

/-- To leave is to be struck out of those who joined and did not leave. -/
theorem InOrder.leaves (hb : b.pending.Nodup) (hmem : t ∈ b.waiting)
    (hgranted : b'.granted = b.granted) (hwaiting : b'.waiting = b.waiting.erase t) :
    (q.note b b').InOrder m b' := by
  obtain ⟨-, hnodup, hdisjoint⟩ := List.nodup_append.mp hb
  have hgone : ∀ u, u ∈ b.waiting.filter (· ∉ b'.pending) ↔ u = t := by
    intro u
    rw [Buffer.pending, hwaiting, hgranted, List.mem_filter, decide_eq_true_iff, List.mem_append,
      hnodup.mem_erase_iff]
    constructor
    · rintro ⟨hu, hout⟩
      exact Decidable.byContradiction fun hne => hout (.inr ⟨hne, hu⟩)
    · rintro rfl
      exact ⟨hmem, fun hin => hin.elim (fun hg => hdisjoint u hg u hmem rfl) fun hw => hw.1 rfl⟩
  unfold Line.note
  rw [hwaiting, hgranted, filter_not_mem_of_subset List.erase_subset,
    filter_not_mem_of_subset (List.Subset.refl _)]
  simp only [List.append_nil]
  refine ⟨?_, h.nodup, ?_⟩
  · have herase := List.Nodup.erase_eq_filter (h.nodup.filter fun u => decide (u ∉ q.left)) t
    rw [List.filter_filter, h.order, List.erase_append_right _ (h.not_mem_served hmem)] at herase
    rw [hwaiting, herase]
    refine List.filter_congr fun u _ => ?_
    simp only [List.mem_append, hgone]
    by_cases hu : u = t <;> simp [hu]
  · intro u hu
    rw [← List.append_assoc, List.mem_append, hgone] at hu
    rcases hu with hu | rfl
    · exact (h.mono hle).begun u hu
    · have hjoined : u ∈ q.joined.filter (· ∉ q.left) := h.order ▸ List.mem_append_right _ hmem
      exact (h.mono hle).begun u (List.mem_append_left _ (List.mem_filter.mp hjoined).1)

/-- Whoever is granted a slot was the first of those who still wait. -/
theorem InOrder.serves (hb : b.pending.Nodup) {others : List Ticket}
    (hsublist : others.Sublist b.granted) (hgranted : b'.granted = others ++ [t])
    (hwaiting : b.waiting = t :: b'.waiting) : (q.note b b').InOrder m b' := by
  have hmem : t ∈ b.waiting := hwaiting ▸ List.mem_cons_self
  have hlast : ∀ u ∈ [t], u ∉ b.granted := by
    intro u hu hg
    obtain rfl := List.mem_singleton.mp hu
    exact (List.nodup_append.mp hb).2.2 u hg u hmem rfl
  have hstays : b.waiting ⊆ b'.pending := by
    intro u hu
    rw [hwaiting, List.mem_cons] at hu
    rw [Buffer.pending, hgranted]
    rcases hu with rfl | hu
    · simp
    · simp [hu]
  have hrest : b'.waiting ⊆ b.waiting := by
    rw [hwaiting]
    exact List.subset_cons_self _ _
  unfold Line.note
  rw [filter_not_mem_of_subset hstays, filter_not_mem_of_subset hrest, hgranted,
    filter_not_mem_append hsublist.subset hlast]
  simp only [List.append_nil]
  refine ⟨?_, h.nodup, (h.mono hle).begun⟩
  rw [h.order, hwaiting, List.append_assoc]
  rfl

/-- **Every step keeps the line.** -/
theorem InOrder.note (hb : b.pending.Nodup) (hc : b.Changes n b')
    (hjoin : b'.waiting = b.waiting ++ [n] → n < m) (hnew : n ∉ b.pending) :
    (q.note b b').InOrder m b' := by
  cases hc with
  | goes hgranted hwaiting => exact h.goes hle hgranted hwaiting
  | joins hgranted hwaiting => exact h.joins hle hgranted hwaiting (hjoin hwaiting) hnew
  | leaves t hmem hgranted hwaiting => exact h.leaves hle hb hmem hgranted hwaiting
  | serves t others hsublist hgranted hwaiting =>
    exact h.serves hle hb hsublist hgranted hwaiting

end

end Line

namespace Exchange

variable {n : Nat} {x y : Exchange α} {l : Ledger α} {q : Line} {i : Ticket} {w : PendingWrite α}

/-! ## Steps -/

/-- The line that is seen when steps are taken one after another. -/
def lineFrom (x : Exchange α) (q : Line) : List (ExchangeStep α) → Line
  | [] => q
  | s :: ss => (x.step s).1.lineFrom (q.note x.buffer (x.step s).1.buffer) ss

/-- **The line of an exchange over a buffer** after the steps. -/
def line (b : Buffer α) (steps : List (ExchangeStep α)) : Line :=
  (ofBuffer b).lineFrom {} steps

theorem reader_settle (x : Exchange α) (i : Ticket) (after : Buffer α × WriteState) :
    (x.settle i after).1.reader = x.reader := by
  unfold settle
  cases after.2 <;> rfl

theorem reader_receive (x : Exchange α) (waits : Bool) :
    (x.receive waits).1.reader = x.reader := by
  unfold receive
  split
  · split <;> rfl
  · rfl

/-- **A reader who is there was there before.** -/
theorem reader_of_step {s : ExchangeStep α} (h : (x.step s).1.reader = true) : x.reader = true := by
  cases s with
  | write writer token item =>
    by_cases hwriter : x.hasWriter writer = true
    · rw [← h, show x.step (.write writer token item) = _ from x.write_eq hwriter token item]
      split
      · rfl
      · rw [reader_settle]
        rfl
    · rw [show x.step (.write writer token item) = (x, .noWriter) from if_neg hwriter] at h
      exact h
  | poll i =>
    cases hw : x.pendingWrite i with
    | none =>
      rw [show x.step (.poll i) = (x, .finished) by simp only [step, poll, hw]] at h
      exact h
    | some w =>
      rw [← h, show x.step (.poll i) = _ from poll_eq hw]
      split
      · rfl
      · exact (reader_settle _ _ _).symm
  | dropWrite i =>
    simp only [step] at h
    split at h <;> exact h
  | receive => exact (reader_receive x true).symm.trans h
  | tryReceive => exact (reader_receive x false).symm.trans h
  | cancel => exact h
  | newToken => exact h
  | cloneWriter => exact h
  | dropWriter => exact h
  | dropReader =>
    simp only [step] at h
    split at h
    · cases h
    · exact h

theorem reader_of_recordFrom {steps : List (ExchangeStep α)}
    (h : (x.recordFrom l steps).1.reader = true) : x.reader = true := by
  induction steps generalizing x l with
  | nil => exact h
  | cons s ss ih => exact reader_of_step (ih h)

/-- **Who waits in the exchange waits in the buffer**, and the line is kept. -/
structure Queued (x : Exchange α) (q : Line) : Prop where
  /-- Every write that waits has a slot, or is in line for one. -/
  inLine : ∀ t, x.pendingWrite t ≠ none → t ∈ x.buffer.pending
  /-- The line is kept. -/
  inOrder : q.InOrder x.writes.length x.buffer

theorem queued_start (b : Buffer α) (h : b.waiting = []) : Queued (ofBuffer b) {} where
  inLine := fun _ ht => absurd rfl ht
  inOrder := ⟨h.symm, List.nodup_nil, nofun⟩

/-- **What is to be seen to after a step**: how the buffer changed, and that whoever
waits is in it. -/
theorem Queued.after (h : Queued x q) (ha : Accounts n x l)
    (hc : x.buffer.Changes x.writes.length y.buffer) (hlength : x.writes.length ≤ y.writes.length)
    (hnew : x.writes.length ∈ y.buffer.pending → x.writes.length < y.writes.length)
    (hline : ∀ t, y.pendingWrite t ≠ none → t ∈ y.buffer.pending) :
    Queued y (q.note x.buffer y.buffer) where
  inLine := hline
  inOrder := by
    refine h.inOrder.note hlength ha.sound.nodup hc (fun hjoin => hnew ?_) ha.not_mem_pending
    rw [Buffer.pending, hjoin]
    simp

/-- A write that waited ends. -/
theorem Queued.endWrite (h : Queued x q) (ha : Accounts n x l) {b : Buffer α}
    (hc : x.buffer.Changes x.writes.length b) (hb : b.pending = x.buffer.pending.erase i) :
    Queued (x.endWrite i b) (q.note x.buffer (x.endWrite i b).buffer) := by
  have hlength : (x.endWrite i b).writes.length = x.writes.length := List.length_set
  refine h.after ha hc (Nat.le_of_eq hlength.symm) (fun hmem => ?_) fun t ht => ?_
  · rw [show (x.endWrite i b).buffer.pending = _ from hb] at hmem
    exact absurd (List.mem_of_mem_erase hmem) ha.not_mem_pending
  · rw [pendingWrite_endWrite] at ht
    split at ht
    · exact absurd rfl ht
    · next hne =>
      rw [show (x.endWrite i b).buffer.pending = _ from hb]
      exact (List.mem_erase_of_ne (Ne.symm hne)).mpr (h.inLine t ht)

/-- Another buffer, in which the same writes wait. -/
theorem Queued.withBuffer (h : Queued x q) (ha : Accounts n x l)
    (hbuffer : x.buffer.Changes x.writes.length y.buffer)
    (hpending : y.buffer.pending = x.buffer.pending) (hwrites : y.writes = x.writes) :
    Queued y (q.note x.buffer y.buffer) := by
  refine h.after ha hbuffer (Nat.le_of_eq (congrArg _ hwrites).symm) (fun hmem => ?_) fun t ht => ?_
  · exact absurd (hpending ▸ hmem) ha.not_mem_pending
  · have hsame : y.pendingWrite t = x.pendingWrite t := by
      unfold pendingWrite
      rw [hwrites]
    rw [hpending]
    exact h.inLine t (hsame ▸ ht)

/-- A write begins and ends at once. -/
theorem Queued.passes (h : Queued x q) (ha : Accounts n x l) (w : PendingWrite α) {b : Buffer α}
    (hc : x.buffer.Changes x.writes.length b) (hb : b.pending = x.buffer.pending) :
    Queued ((x.beginWrite w).endWrite x.writes.length b) (q.note x.buffer b) := by
  have hlength : ((x.beginWrite w).endWrite x.writes.length b).writes.length
      = x.writes.length + 1 := by
    show ((x.writes ++ [some w]).set _ none).length = _
    rw [List.length_set, List.length_append, List.length_singleton]
  refine h.after ha (y := (x.beginWrite w).endWrite x.writes.length b) hc (by omega)
    (fun _ => by omega) fun t ht => ?_
  rw [pendingWrite_endWrite, pendingWrite_beginWrite] at ht
  rw [show ((x.beginWrite w).endWrite x.writes.length b).buffer.pending = _ from hb]
  split at ht
  · exact absurd rfl ht
  · next hne =>
    rw [if_neg (Ne.symm hne)] at ht
    exact h.inLine t ht

/-- **A write begins to wait.** -/
theorem Queued.joins (h : Queued x q) (ha : Accounts n x l) (w : PendingWrite α) :
    Queued { x.beginWrite w with
        buffer := { x.buffer with waiting := x.buffer.waiting ++ [x.writes.length] } }
      (q.note x.buffer { x.buffer with waiting := x.buffer.waiting ++ [x.writes.length] }) := by
  have hlength : (x.writes ++ [some w]).length = x.writes.length + 1 := by
    rw [List.length_append, List.length_singleton]
  refine h.after ha (y := { x.beginWrite w with buffer := _ }) (.joins rfl rfl)
    (show x.writes.length ≤ (x.writes ++ [some w]).length by omega)
    (fun _ => show x.writes.length < (x.writes ++ [some w]).length by omega) fun t ht => ?_
  have ht : (x.beginWrite w).pendingWrite t ≠ none := ht
  show t ∈ x.buffer.granted ++ (x.buffer.waiting ++ [x.writes.length])
  rw [← List.append_assoc, List.mem_append, List.mem_singleton]
  rw [pendingWrite_beginWrite] at ht
  split at ht
  · next heq => exact .inr heq
  · exact .inl (h.inLine t ht)

/-! ## What the steps do -/

/-- **A write gives up** in a step: it is given up, or it goes on when its token has
fired. -/
def GivesUp (x : Exchange α) (i : Ticket) (s : ExchangeStep α) : Prop :=
  ∃ w, x.pendingWrite i = some w ∧ (s = .dropWrite i ∨ s = .poll i ∧ w.token ∈ x.fired)

/-- A step in which the reader reads. -/
def Reads (s : ExchangeStep α) : Prop :=
  s = .receive ∨ s = .tryReceive

theorem step_of_givesUp {s : ExchangeStep α} (h : x.GivesUp i s) :
    (x.step s).1 = x.endWrite i (x.buffer.abandonWrite i) := by
  obtain ⟨w, hw, rfl | ⟨rfl, hfired⟩⟩ := h
  · rw [step_dropWrite hw]
  · rw [show x.step (.poll i) = _ from poll_eq hw, if_pos hfired]
    rfl

theorem step_of_reads {s : ExchangeStep α} (hs : Reads s) (hreader : x.reader = true) {item : α}
    {items : List α} (hq : x.buffer.queue = item :: items) :
    x.step s = ({ x with buffer := Buffer.release { x.buffer with queue := items } },
      .got (some item)) := by
  have hreceive : ∀ waits, x.receive waits
      = ({ x with buffer := Buffer.release { x.buffer with queue := items } },
        .got (some item)) := by
    intro waits
    unfold receive
    rw [if_pos hreader, Buffer.take_cons hq]
  obtain rfl | rfl := hs
  · exact hreceive true
  · exact hreceive false

/-- A read that finds nothing changes nothing. -/
theorem step_of_reads_nil {s : ExchangeStep α} (hs : Reads s) (hq : x.buffer.queue = []) :
    (x.step s).1 = x := by
  have hreceive : ∀ waits, (x.receive waits).1 = x := by
    intro waits
    unfold receive
    rw [Buffer.take_nil hq]
    split <;> rfl
  obtain rfl | rfl := hs
  · exact hreceive true
  · exact hreceive false

section

variable {writer token : Nat} {item : α} (hopen : x.buffer.closed = false)

include hopen

theorem step_write_of_free (hwriter : x.hasWriter writer = true)
    (hfired : x.tokens.getD token token ∉ x.fired) (hfree : 0 < x.buffer.free) :
    x.step (.write writer token item)
      = ((x.beginWrite ⟨item, x.tokens.getD token token⟩).endWrite x.writes.length
          { x.buffer with free := x.buffer.free - 1, queue := x.buffer.queue ++ [item] },
        .wrote (.ok ())) := by
  rw [show x.step (.write writer token item) = _ from x.write_eq hwriter token item, if_neg hfired,
    Buffer.startWrite_of_free hopen hfree]
  rfl

theorem step_write_of_full (hwriter : x.hasWriter writer = true)
    (hfired : x.tokens.getD token token ∉ x.fired) (hfull : x.buffer.free = 0) :
    x.step (.write writer token item)
      = ({ x.beginWrite ⟨item, x.tokens.getD token token⟩ with
            buffer := { x.buffer with waiting := x.buffer.waiting ++ [x.writes.length] } },
        .pending) := by
  rw [show x.step (.write writer token item) = _ from x.write_eq hwriter token item, if_neg hfired,
    Buffer.startWrite_of_full hopen hfull]
  rfl

theorem step_poll_of_granted (hw : x.pendingWrite i = some w) (hfired : w.token ∉ x.fired)
    (hi : i ∈ x.buffer.granted) :
    x.step (.poll i)
      = (x.endWrite i { x.buffer with
            granted := x.buffer.granted.erase i
            queue := x.buffer.queue ++ [w.item] }, .wrote (.ok ())) := by
  rw [show x.step (.poll i) = _ from poll_eq hw, if_neg hfired,
    Buffer.resumeWrite_of_granted hopen hi]
  rfl

theorem step_poll_of_not_granted (hw : x.pendingWrite i = some w) (hfired : w.token ∉ x.fired)
    (hi : i ∉ x.buffer.granted) : x.step (.poll i) = (x, .pending) := by
  rw [show x.step (.poll i) = _ from poll_eq hw, if_neg hfired,
    Buffer.resumeWrite_of_not_granted hopen hi]
  rfl

end

/-! ## Runs -/

theorem Queued.write (h : Queued x q) (ha : Accounts n x l) (hopen : x.buffer.closed = false)
    (writer token : Nat) (item : α) :
    Queued (x.step (.write writer token item)).1
      (q.note x.buffer (x.step (.write writer token item)).1.buffer) := by
  by_cases hwriter : x.hasWriter writer = true
  · by_cases hfired : x.tokens.getD token token ∈ x.fired
    · rw [show x.step (.write writer token item) = _ from x.write_eq hwriter token item,
        if_pos hfired]
      show Queued ((x.beginWrite _).endWrite _ (x.buffer.abandonWrite x.writes.length))
        (q.note x.buffer (x.buffer.abandonWrite x.writes.length))
      rw [Buffer.abandonWrite_of_not_mem ha.not_mem_pending]
      exact h.passes ha _ (Buffer.Changes.refl _ _) rfl
    · rcases Nat.eq_zero_or_pos x.buffer.free with hfull | hfree
      · rw [step_write_of_full hopen hwriter hfired hfull]
        exact h.joins ha _
      · rw [step_write_of_free hopen hwriter hfired hfree]
        exact h.passes ha _ (.goes (List.Sublist.refl _) rfl) rfl
  · rw [show x.step (.write writer token item) = (x, .noWriter) from if_neg hwriter]
    exact h.withBuffer ha (Buffer.Changes.refl _ _) rfl rfl

/-- **Every step keeps the line**, if the reader is there afterwards. -/
theorem Queued.step (h : Queued x q) (ha : Accounts n x l) {s : ExchangeStep α}
    (hreader : (x.step s).1.reader = true) :
    Queued (x.step s).1 (q.note x.buffer (x.step s).1.buffer) := by
  have hopen := ha.isOpen_iff.mpr (reader_of_step hreader)
  have hsame : ∀ y : Exchange α, y.buffer = x.buffer → y.writes = x.writes →
      Queued y (q.note x.buffer y.buffer) := by
    intro y hbuffer hwrites
    refine h.withBuffer ha ?_ (congrArg Buffer.pending hbuffer) hwrites
    rw [hbuffer]
    exact Buffer.Changes.refl _ _
  have hgivesUp : ∀ i w, x.pendingWrite i = some w → ∀ s, x.GivesUp i s →
      Queued (x.step s).1 (q.note x.buffer (x.step s).1.buffer) := by
    intro i w hw s hs
    rw [step_of_givesUp hs]
    refine h.endWrite ha (Buffer.changes_abandonWrite _ (h.inLine i ?_))
      (Buffer.pending_abandonWrite _ i)
    rw [hw]
    exact Option.some_ne_none w
  have hreads : ∀ s, Reads s → Queued (x.step s).1 (q.note x.buffer (x.step s).1.buffer) := by
    intro s hs
    cases hq : x.buffer.queue with
    | nil =>
      rw [step_of_reads_nil hs hq]
      exact hsame x rfl rfl
    | cons item items =>
      rw [step_of_reads hs (reader_of_step hreader) hq]
      exact h.withBuffer ha (Buffer.changes_release _ (List.Sublist.refl _) rfl)
        (Buffer.pending_release _) rfl
  cases s with
  | write writer token item => exact h.write ha hopen writer token item
  | poll i =>
    cases hw : x.pendingWrite i with
    | none =>
      rw [show x.step (.poll i) = (x, .finished) by simp only [Exchange.step, poll, hw]]
      exact hsame x rfl rfl
    | some w =>
      by_cases hfired : w.token ∈ x.fired
      · exact hgivesUp i w hw _ ⟨w, hw, .inr ⟨rfl, hfired⟩⟩
      · by_cases hi : i ∈ x.buffer.granted
        · rw [step_poll_of_granted hopen hw hfired hi]
          exact h.endWrite ha (.goes List.erase_sublist rfl) (List.erase_append_left _ hi).symm
        · rw [step_poll_of_not_granted hopen hw hfired hi]
          exact hsame x rfl rfl
  | dropWrite i =>
    cases hw : x.pendingWrite i with
    | none =>
      rw [show x.step (.dropWrite i) = (x, .was false) by simp only [Exchange.step, hw]]
      exact hsame x rfl rfl
    | some w => exact hgivesUp i w hw _ ⟨w, hw, .inl rfl⟩
  | receive => exact hreads _ (.inl rfl)
  | tryReceive => exact hreads _ (.inr rfl)
  | cancel i => exact hsame _ rfl rfl
  | newToken i => exact hsame _ rfl rfl
  | cloneWriter i => exact hsame _ rfl rfl
  | dropWriter i => exact hsame _ rfl rfl
  | dropReader =>
    rw [show x.step .dropReader = _ from if_pos (reader_of_step hreader)] at hreader
    cases hreader

/-- **Every run keeps the line**, as long as the reader is there. -/
theorem Queued.recordFrom (h : Queued x q) (ha : Accounts n x l) {steps : List (ExchangeStep α)}
    (hreader : (x.recordFrom l steps).1.reader = true) :
    Queued (x.recordFrom l steps).1 (x.lineFrom q steps) := by
  induction steps generalizing x l q with
  | nil => exact h
  | cons s ss ih =>
    exact ih (h.step ha (reader_of_recordFrom hreader)) (ha.step s) hreader

end Exchange

/-! ## What every run shows -/

/-- **The writes that were accepted** and whose items have not been received. -/
def Ledger.undelivered (l : Ledger α) : List Ticket :=
  l.accepted.drop l.received.length

namespace Buffer

/-- **A slot comes free**: the head of the line has it, and nobody if there is no line. -/
def Frees (b b' : Buffer α) : Prop :=
  (∃ t ts, b.waiting = t :: ts ∧ b' = { b with granted := b.granted ++ [t], waiting := ts })
    ∨ b.waiting = [] ∧ b' = { b with free := b.free + 1 }

theorem frees_release (b : Buffer α) : b.Frees b.release := by
  cases h : b.waiting with
  | nil => exact .inr ⟨h, release_nil h⟩
  | cons t ts => exact .inl ⟨t, ts, h, release_cons h⟩

end Buffer

namespace Exchange

variable {n : Nat} {x : Exchange α} {l : Ledger α} {q : Line}

/-- What was accepted and not received is in the queue. -/
theorem Accounts.items_undelivered (h : Accounts n x l) (hreader : x.reader = true) :
    l.items l.undelivered = x.buffer.queue.map some := by
  obtain ⟨lost, hitems, -, hnone⟩ := h.delivered
  obtain rfl := hnone hreader
  unfold Ledger.items at hitems ⊢
  rw [Ledger.undelivered, List.map_drop, hitems, List.append_nil, List.map_append]
  exact List.drop_left' (List.length_map some)

/-- What was accepted and not received is as much as is in the queue. -/
theorem Accounts.length_undelivered (h : Accounts n x l) (hreader : x.reader = true) :
    l.undelivered.length = x.buffer.queue.length := by
  have hlength := congrArg List.length (h.items_undelivered hreader)
  rwa [List.length_map, show (l.items l.undelivered).length = l.undelivered.length from
    List.length_map _] at hlength

/-- **An exchange over a buffer with `n` slots shares them fairly**, by the ledger and
the line that were seen. -/
structure SharesFairly (n : Nat) (x : Exchange α) (l : Ledger α) (q : Line) : Prop where
  /-- Slots are taken by what was accepted and not received, granted to writes that wait,
  or free. -/
  conserved : l.undelivered.length + x.buffer.granted.length + x.buffer.free = n
  /-- A write waits with a slot or without one. -/
  waits_iff : ∀ t, x.pendingWrite t ≠ none ↔ t ∈ x.buffer.granted ∨ t ∈ x.buffer.waiting
  /-- No write waits twice. -/
  once : (x.buffer.granted ++ x.buffer.waiting).Nodup
  /-- While a slot is free no write waits without one. -/
  idle : 0 < x.buffer.free → x.buffer.waiting = []
  /-- Who joined the line and did not leave it was granted a slot, or is still in line;
  in the order in which they joined. -/
  inOrder : q.joined.filter (· ∉ q.left) = q.served ++ x.buffer.waiting
  /-- A write that begins is accepted if a slot is free, and else joins the line. -/
  begins : ∀ writer token item, x.hasWriter writer = true →
    x.tokens.getD token token ∉ x.fired →
      0 < x.buffer.free ∧ (x.step (.write writer token item)).2 = .wrote (.ok ())
        ∨ x.buffer.free = 0 ∧ (x.step (.write writer token item)).2 = .pending
          ∧ (x.step (.write writer token item)).1.buffer
            = { x.buffer with waiting := x.buffer.waiting ++ [x.writes.length] }
  /-- A write that goes on is accepted if it was granted a slot, and else stays where it
  is. -/
  goesOn : ∀ i w, x.pendingWrite i = some w → w.token ∉ x.fired →
    i ∈ x.buffer.granted ∧ (x.step (.poll i)).2 = .wrote (.ok ())
      ∨ i ∈ x.buffer.waiting ∧ x.step (.poll i) = (x, .pending)
  /-- A write that gives up passes on the slot that it was granted. -/
  passesOn : ∀ i s, x.GivesUp i s → i ∈ x.buffer.granted →
    Buffer.Frees { x.buffer with granted := x.buffer.granted.erase i } (x.step s).1.buffer
  /-- Without a slot it leaves the line, and that is all. -/
  leaves : ∀ i s, x.GivesUp i s → i ∈ x.buffer.waiting →
    (x.step s).1.buffer = { x.buffer with waiting := x.buffer.waiting.erase i }
  /-- Whoever reads is given the item at the head of the queue, and its slot comes free. -/
  reads : ∀ s item items, Reads s → x.buffer.queue = item :: items →
    (x.step s).2 = .got (some item)
      ∧ Buffer.Frees { x.buffer with queue := items } (x.step s).1.buffer

/-- **Where the accounts agree and the line is kept**, the slots are shared fairly. -/
theorem Queued.sharesFairly (h : Queued x q) (ha : Accounts n x l) (hreader : x.reader = true) :
    SharesFairly n x l q where
  conserved := by
    have hsum := (ha.sound.conserved (ha.isOpen_iff.mpr hreader)).1
    rw [ha.capacity, ← ha.length_undelivered hreader] at hsum
    omega
  waits_iff := fun t => by
    rw [← List.mem_append]
    exact ⟨h.inLine t, ha.waits t⟩
  once := ha.sound.nodup
  idle := (ha.sound.conserved (ha.isOpen_iff.mpr hreader)).2
  inOrder := h.inOrder.order
  begins := by
    intro writer token item hwriter hfired
    have hopen := ha.isOpen_iff.mpr hreader
    rcases Nat.eq_zero_or_pos x.buffer.free with hfull | hfree
    · rw [step_write_of_full hopen hwriter hfired hfull]
      exact .inr ⟨hfull, rfl, rfl⟩
    · rw [step_write_of_free hopen hwriter hfired hfree]
      exact .inl ⟨hfree, rfl⟩
  goesOn := by
    intro i w hw hfired
    have hopen := ha.isOpen_iff.mpr hreader
    have hmem := h.inLine i (hw ▸ Option.some_ne_none w)
    by_cases hi : i ∈ x.buffer.granted
    · rw [step_poll_of_granted hopen hw hfired hi]
      exact .inl ⟨hi, rfl⟩
    · exact .inr ⟨(List.mem_append.mp hmem).resolve_left hi,
        step_poll_of_not_granted hopen hw hfired hi⟩
  passesOn := by
    intro i s hs hi
    rw [step_of_givesUp hs, Buffer.abandonWrite_of_granted hi]
    exact Buffer.frees_release _
  leaves := by
    intro i s hs hi
    have hout : i ∉ x.buffer.granted := fun hg =>
      (List.nodup_append.mp ha.sound.nodup).2.2 i hg i hi rfl
    rw [step_of_givesUp hs, Buffer.abandonWrite_of_not_granted hout]
    rfl
  reads := by
    intro s item items hs hq
    rw [step_of_reads hs hreader hq]
    exact ⟨rfl, Buffer.frees_release _⟩

/-- **Slots are conserved and granted in order**, in every run over a buffer that was
made, as long as there is a reader. -/
theorem record_sharesFairly (capacity : Nat) (b : Buffer α)
    (hb : (Buffer.create capacity).value = .done b) (steps : List (ExchangeStep α))
    (hreader : (record b steps).1.reader = true) :
    (0 < capacity → b.capacity = capacity)
      ∧ SharesFairly b.capacity (record b steps).1 (record b steps).2 (line b steps) := by
  refine ⟨fun hpos => (Buffer.capacity_of_create hb).trans (if_neg (Nat.ne_of_gt hpos)), ?_⟩
  obtain ⟨n, rfl⟩ := Buffer.create_done hb
  have hstart := Accounts.start (α := α) n
  have hqueued := (queued_start (Buffer.empty n : Buffer α) rfl).recordFrom hstart hreader
  exact hqueued.sharesFairly (hstart.recordFrom steps) hreader

/-- Three writes wait for one slot. The first is granted it and gives up, the second
has left the line by then, and the third is accepted. -/
def passedOn : List (ExchangeStep String) :=
  [.write 0 0 "first", .write 0 1 "second", .write 0 2 "third", .write 0 0 "fourth", .receive,
    .dropWrite 2, .cancel 1, .poll 1, .poll 3]

/-- The slot goes from the one to the other, and none is lost. -/
theorem record_sharesFairly_passedOn :
    (Buffer.create 1 : Log.Reported (Attempt (Buffer String))).value = .done (Buffer.empty 1)
      ∧ (record (Buffer.empty 1) passedOn).1.reader = true
      ∧ SharesFairly 1 (record (Buffer.empty 1) passedOn).1 (record (Buffer.empty 1) passedOn).2
        (line (Buffer.empty 1) passedOn)
      ∧ (line (Buffer.empty 1) passedOn).joined = [1, 2, 3]
      ∧ (line (Buffer.empty 1) passedOn).served = [1, 3]
      ∧ (record (Buffer.empty 1) passedOn).2.undelivered = [3] :=
  ⟨rfl, rfl, (record_sharesFairly 1 (Buffer.empty 1) rfl passedOn rfl).2, rfl, rfl, rfl⟩

end Exchange

end IncidentMemory
