import IncidentMemory.Buffer.Exchange
import IncidentMemory.Proofs.Buffer

/-!
# What a buffer delivers

Someone who sees the steps of an exchange and what came of each, but not the
buffer, can keep a ledger: which writes were accepted and in which order, which
were given up, and what was received. `Exchange.record_faithful` says what every
such ledger shows. Nothing accepted is lost, doubled or overtaken; nothing that
was given up is delivered; no more is under way than the buffer has slots.

A write that waits is in three places: among the waiting writes of the exchange,
possibly among the pending tickets of the buffer, and not yet among those that
the ledger has as ended. `Exchange.Accounts` says that these agree. It is what
every step preserves, whatever the order in which slots are granted, tokens fire
and writes go on.
-/

namespace IncidentMemory

variable {α : Type}

/-! ## The ledger -/

/-- **What was seen of an exchange.** -/
structure Ledger (α : Type) where
  /-- The items of the writes that began; a write's ticket is its place here. -/
  begun : List α := []
  /-- The writes that were accepted, in the order in which they were. -/
  accepted : List Ticket := []
  /-- The writes that failed or were given up. -/
  abandoned : List Ticket := []
  /-- The items that were received. -/
  received : List α := []

namespace Ledger

/-- Notes that a write ended, if it did. -/
def ended (l : Ledger α) (i : Ticket) : ExchangeResult α → Ledger α
  | .wrote (.ok ()) => { l with accepted := l.accepted ++ [i] }
  | .wrote (.error _) => { l with abandoned := l.abandoned ++ [i] }
  | _ => l

/-- Notes that a write began. -/
def opened (l : Ledger α) (item : α) : Ledger α :=
  { l with begun := l.begun ++ [item] }

/-- Notes what was read. -/
def read (l : Ledger α) : ExchangeResult α → Ledger α
  | .got (some item) => { l with received := l.received ++ [item] }
  | _ => l

/-- **Notes a step** and what came of it. -/
def note (l : Ledger α) : ExchangeStep α → ExchangeResult α → Ledger α
  | .write _ _ _, .noWriter => l
  | .write _ _ item, result => (l.opened item).ended l.begun.length result
  | .poll i, result => l.ended i result
  | .dropWrite i, .was true => { l with abandoned := l.abandoned ++ [i] }
  | .receive, result => l.read result
  | .tryReceive, result => l.read result
  | _, _ => l

/-- The items of writes. -/
def items (l : Ledger α) (tickets : List Ticket) : List (Option α) :=
  tickets.map (l.begun[·]?)

/-- The items of writes stay what they are when others begin. -/
theorem items_opened (l : Ledger α) (item : α) {tickets : List Ticket}
    (h : ∀ t ∈ tickets, t < l.begun.length) : (l.opened item).items tickets = l.items tickets := by
  refine List.map_congr_left fun t ht => ?_
  show (l.begun ++ [item])[t]? = l.begun[t]?
  exact List.getElem?_append_left (h t ht)

end Ledger

namespace Exchange

/-- **Takes steps one after another**, and keeps a ledger. -/
def recordFrom (x : Exchange α) (l : Ledger α) : List (ExchangeStep α) → Exchange α × Ledger α
  | [] => (x, l)
  | s :: ss => (x.step s).1.recordFrom (l.note s (x.step s).2) ss

/-- The exchange over a buffer, and the ledger, after the steps. -/
def record (b : Buffer α) (steps : List (ExchangeStep α)) : Exchange α × Ledger α :=
  (ofBuffer b).recordFrom {} steps

variable {n : Nat} {x : Exchange α} {l : Ledger α} {i : Ticket} {w : PendingWrite α}

/-! ## Writes that begin and end -/

/-- The exchange in which one more write has begun. -/
def beginWrite (x : Exchange α) (w : PendingWrite α) : Exchange α :=
  { x with writes := x.writes ++ [some w] }

/-- The exchange in which a write has ended, over another buffer. -/
def endWrite (x : Exchange α) (i : Ticket) (b : Buffer α) : Exchange α :=
  { x with buffer := b, writes := x.writes.set i none }

/-- A write begins, and then looks at its token and for a slot. -/
theorem write_eq (x : Exchange α) {writer : Nat} (h : x.hasWriter writer = true) (token : Nat)
    (item : α) :
    x.write writer token item
      = if x.tokens.getD token token ∈ x.fired
        then (x.beginWrite ⟨item, x.tokens.getD token token⟩).cancelWrite x.writes.length
        else (x.beginWrite ⟨item, x.tokens.getD token token⟩).settle x.writes.length
          (x.buffer.startWrite x.writes.length item) :=
  if_pos h

/-- A write that waits goes on by looking at its token and for a slot. -/
theorem poll_eq (hw : x.pendingWrite i = some w) :
    x.poll i = if w.token ∈ x.fired then x.cancelWrite i
      else x.settle i (x.buffer.resumeWrite i w.item) := by
  unfold poll
  rw [hw]

/-- A write that waits is given up. -/
theorem step_dropWrite (hw : x.pendingWrite i = some w) :
    x.step (.dropWrite i) = (x.endWrite i (x.buffer.abandonWrite i), .was true) := by
  simp only [step, hw]
  rfl

/-- Only writes that began wait. -/
theorem lt_length_of_pendingWrite (h : x.pendingWrite i = some w) : i < x.writes.length := by
  refine Nat.lt_of_not_le fun hle => ?_
  unfold pendingWrite at h
  rw [List.getD_eq_getElem?_getD, List.getElem?_eq_none hle] at h
  exact nomatch h

theorem pendingWrite_beginWrite (x : Exchange α) (w : PendingWrite α) (j : Ticket) :
    (x.beginWrite w).pendingWrite j
      = if j = x.writes.length then some w else x.pendingWrite j := by
  show (x.writes ++ [some w]).getD j none = _
  unfold pendingWrite
  rw [List.getD_eq_getElem?_getD, List.getD_eq_getElem?_getD]
  by_cases hj : j = x.writes.length
  · rw [if_pos hj, hj, List.getElem?_concat_length]
    rfl
  · rw [if_neg hj]
    rcases Nat.lt_or_gt_of_ne hj with hlt | hgt
    · rw [List.getElem?_append_left hlt]
    · rw [List.getElem?_eq_none (Nat.le_of_lt hgt), List.getElem?_eq_none]
      rw [List.length_append, List.length_singleton]
      exact hgt

theorem pendingWrite_endWrite (x : Exchange α) (i : Ticket) (b : Buffer α) (j : Ticket) :
    (x.endWrite i b).pendingWrite j = if i = j then none else x.pendingWrite j := by
  show (x.writes.set i none).getD j none = _
  unfold pendingWrite
  rw [List.getD_eq_getElem?_getD, List.getD_eq_getElem?_getD, List.getElem?_set]
  by_cases hij : i = j
  · rw [if_pos hij, if_pos hij]
    split <;> rfl
  · rw [if_neg hij, if_neg hij]

/-! ## The accounts -/

/-- **The ledger and the exchange agree**, over a buffer with `n` slots. -/
structure Accounts (n : Nat) (x : Exchange α) (l : Ledger α) : Prop where
  /-- The buffer is in good order. -/
  sound : x.buffer.Sound
  /-- It has as many slots as when it was made. -/
  capacity : x.buffer.capacity = n
  /-- It is open as long as there is a reader. -/
  reading : x.buffer.closed = !x.reader
  /-- The ledger has seen every write that began. -/
  begun : l.begun.length = x.writes.length
  /-- It has the items of those that wait. -/
  item : ∀ {i : Ticket} {w : PendingWrite α}, x.pendingWrite i = some w →
    l.begun[i]? = some w.item
  /-- What waits in the buffer waits in the exchange. -/
  waits : ∀ t ∈ x.buffer.pending, x.pendingWrite t ≠ none
  /-- What has ended began, and does not wait. -/
  settled : ∀ t ∈ l.accepted ++ l.abandoned, t < l.begun.length ∧ x.pendingWrite t = none
  /-- Every write ends once. -/
  once : (l.accepted ++ l.abandoned).Nodup
  /-- What was accepted was received, is queued, or was lost with the reader. -/
  delivered : ∃ lost : List α, l.items l.accepted = (l.received ++ x.buffer.queue ++ lost).map some
    ∧ lost.length ≤ n ∧ (x.reader = true → lost = [])

/-- At the beginning there is nothing to agree about. -/
theorem Accounts.start (n : Nat) : Accounts n (ofBuffer (Buffer.empty n : Buffer α)) {} where
  sound := Buffer.sound_empty n
  capacity := rfl
  reading := rfl
  begun := rfl
  item := fun h => nomatch h
  waits := fun _ ht => absurd ht List.not_mem_nil
  settled := fun _ ht => absurd ht List.not_mem_nil
  once := List.nodup_nil
  delivered := ⟨[], rfl, Nat.zero_le n, fun _ => rfl⟩

/-- The buffer is open exactly if there is a reader. -/
theorem Accounts.isOpen_iff (h : Accounts n x l) : x.buffer.closed = false ↔ x.reader = true := by
  rw [h.reading, Bool.not_eq_false']

/-- Steps that touch neither the buffer nor the writes leave the accounts as
they are. -/
theorem Accounts.same (h : Accounts n x l) {y : Exchange α} (hbuffer : y.buffer = x.buffer)
    (hwrites : y.writes = x.writes) (hreader : y.reader = x.reader) : Accounts n y l := by
  cases y
  cases hbuffer
  cases hwrites
  cases hreader
  exact ⟨h.sound, h.capacity, h.reading, h.begun, h.item, h.waits, h.settled, h.once, h.delivered⟩

/-- A new ticket is nowhere in the buffer. -/
theorem Accounts.not_mem_pending (h : Accounts n x l) :
    x.writes.length ∉ x.buffer.pending := by
  intro hmem
  obtain ⟨w, hw⟩ := Option.ne_none_iff_exists'.mp (h.waits _ hmem)
  exact Nat.lt_irrefl _ (lt_length_of_pendingWrite hw)

/-- **A write begins.** -/
theorem Accounts.beginWrite (h : Accounts n x l) (w : PendingWrite α) :
    Accounts n (x.beginWrite w) (l.opened w.item) where
  sound := h.sound
  capacity := h.capacity
  reading := h.reading
  begun := by
    show (l.begun ++ [w.item]).length = (x.writes ++ [some w]).length
    rw [List.length_append, List.length_append, h.begun]
    rfl
  item := by
    intro i v hv
    rw [pendingWrite_beginWrite] at hv
    show (l.begun ++ [w.item])[i]? = some v.item
    by_cases hi : i = x.writes.length
    · rw [if_pos hi] at hv
      obtain rfl := Option.some.inj hv
      rw [hi, ← h.begun]
      exact List.getElem?_concat_length
    · rw [if_neg hi] at hv
      rw [List.getElem?_append_left (h.begun ▸ lt_length_of_pendingWrite hv)]
      exact h.item hv
  waits := by
    intro t ht
    have hne : t ≠ x.writes.length := fun heq => h.not_mem_pending (heq ▸ ht)
    rw [pendingWrite_beginWrite, if_neg hne]
    exact h.waits t ht
  settled := by
    intro t ht
    obtain ⟨hlt, hnone⟩ := h.settled t ht
    rw [pendingWrite_beginWrite, if_neg (Nat.ne_of_lt (h.begun ▸ hlt))]
    refine ⟨?_, hnone⟩
    show t < (l.begun ++ [w.item]).length
    rw [List.length_append]
    exact Nat.lt_add_right _ hlt
  once := h.once
  delivered := by
    obtain ⟨lost, hitems, hlost⟩ := h.delivered
    refine ⟨lost, Eq.trans ?_ hitems, hlost⟩
    exact l.items_opened w.item fun t ht => (h.settled t (List.mem_append_left _ ht)).1

/-- A write that waits has not ended. -/
theorem Accounts.not_settled (h : Accounts n x l) (hw : x.pendingWrite i = some w) :
    i ∉ l.accepted ++ l.abandoned :=
  fun hmem => absurd (hw.symm.trans (h.settled i hmem).2) (Option.some_ne_none w)

/-- When a write ends, the others wait as before. -/
theorem Accounts.waits_endWrite (h : Accounts n x l) {b : Buffer α}
    (hb : b.pending = x.buffer.pending.erase i) :
    ∀ t ∈ (x.endWrite i b).buffer.pending, (x.endWrite i b).pendingWrite t ≠ none := by
  intro t ht
  rw [show (x.endWrite i b).buffer.pending = x.buffer.pending.erase i from hb,
    h.sound.nodup.mem_erase_iff] at ht
  rw [pendingWrite_endWrite, if_neg (Ne.symm ht.1)]
  exact h.waits t ht.2

theorem Accounts.item_endWrite (h : Accounts n x l) {b : Buffer α} {j : Ticket}
    {v : PendingWrite α} (hv : (x.endWrite i b).pendingWrite j = some v) :
    l.begun[j]? = some v.item := by
  rw [pendingWrite_endWrite] at hv
  split at hv
  · exact nomatch hv
  · exact h.item hv

theorem Accounts.settled_endWrite (h : Accounts n x l) (hw : x.pendingWrite i = some w)
    {b : Buffer α} {t : Ticket} (ht : t = i ∨ t ∈ l.accepted ++ l.abandoned) :
    t < l.begun.length ∧ (x.endWrite i b).pendingWrite t = none := by
  rw [pendingWrite_endWrite]
  rcases ht with rfl | ht
  · exact ⟨h.begun ▸ lt_length_of_pendingWrite hw, if_pos rfl⟩
  · obtain ⟨hlt, hnone⟩ := h.settled t ht
    refine ⟨hlt, ?_⟩
    split
    · rfl
    · exact hnone

/-- **A write is given up**, whether or not it was granted a slot. -/
theorem Accounts.abandon (h : Accounts n x l) (hw : x.pendingWrite i = some w) :
    Accounts n (x.endWrite i (x.buffer.abandonWrite i))
      { l with abandoned := l.abandoned ++ [i] } where
  sound := h.sound.abandonWrite i
  capacity := (Buffer.capacity_abandonWrite _ i).trans h.capacity
  reading := (Buffer.closed_abandonWrite _ i).trans h.reading
  begun := h.begun.trans List.length_set.symm
  item := h.item_endWrite
  waits := h.waits_endWrite (Buffer.pending_abandonWrite _ i)
  settled := by
    intro t ht
    refine h.settled_endWrite hw ?_
    rw [← List.append_assoc, List.mem_append, List.mem_singleton] at ht
    exact ht.symm
  once := by
    rw [← List.append_assoc]
    refine List.nodup_append.mpr ⟨h.once, List.pairwise_singleton _ i, fun t ht u hu => ?_⟩
    rintro rfl
    exact h.not_settled hw (List.mem_singleton.mp hu ▸ ht)
  delivered := by
    rw [show (x.endWrite i (x.buffer.abandonWrite i)).buffer.queue = x.buffer.queue from
      Buffer.queue_abandonWrite _ i]
    exact h.delivered

/-- **A write is accepted**, and its item is the last of the queue. -/
theorem Accounts.accept (h : Accounts n x l) (hw : x.pendingWrite i = some w) {b : Buffer α}
    (hb : x.buffer.Accepts i w.item b) :
    Accounts n (x.endWrite i b) { l with accepted := l.accepted ++ [i] } where
  sound := h.sound.accepts hb
  capacity := hb.capacity.trans h.capacity
  reading := hb.closed.trans h.reading
  begun := h.begun.trans List.length_set.symm
  item := h.item_endWrite
  waits := h.waits_endWrite hb.pending
  settled := by
    intro t ht
    refine h.settled_endWrite hw ?_
    rw [List.append_assoc, List.mem_append, List.mem_append, List.mem_singleton] at ht
    rw [List.mem_append]
    exact ht.elim (fun ha => Or.inr (Or.inl ha)) (Or.imp_right Or.inr)
  once := by
    have hperm : (l.accepted ++ [i] ++ l.abandoned).Perm (i :: (l.accepted ++ l.abandoned)) := by
      rw [List.append_assoc]
      exact List.perm_middle
    rw [hperm.nodup_iff, List.nodup_cons]
    exact ⟨h.not_settled hw, h.once⟩
  delivered := by
    obtain ⟨lost, hitems, -, hnone⟩ := h.delivered
    -- an open buffer has a reader, so nothing was lost that would come in between
    obtain rfl := hnone (h.isOpen_iff.mp hb.isOpen)
    refine ⟨[], ?_, Nat.zero_le n, fun _ => rfl⟩
    show (l.accepted ++ [i]).map (l.begun[·]?) = (l.received ++ b.queue ++ []).map some
    have hlast : [i].map (l.begun[·]?) = [w.item].map some := congrArg ([·]) (h.item hw)
    rw [List.map_append, show l.accepted.map (l.begun[·]?) = _ from hitems, hlast,
      ← List.map_append, hb.queue, List.append_nil, List.append_nil, List.append_assoc]

/-- **A write waits**, and may have begun to. -/
theorem Accounts.wait (h : Accounts n x l) (hw : x.pendingWrite i = some w) {b : Buffer α}
    (hb : x.buffer.Waits i b) : Accounts n { x with buffer := b } l where
  sound := h.sound.waits hb
  capacity := hb.capacity.trans h.capacity
  reading := hb.closed.trans h.reading
  begun := h.begun
  item := h.item
  waits := by
    intro t ht
    rcases hb.pending with hsame | ⟨-, hadded⟩
    · exact h.waits t (hsame ▸ ht)
    · rw [show ({ x with buffer := b } : Exchange α).buffer.pending = _ from hadded,
        List.mem_append, List.mem_singleton] at ht
      rcases ht with ht | rfl
      · exact h.waits t ht
      · exact fun hnone => absurd (hw.symm.trans hnone) (Option.some_ne_none w)
  settled := h.settled
  once := h.once
  delivered := by
    rw [show ({ x with buffer := b } : Exchange α).buffer.queue = x.buffer.queue from hb.queue]
    exact h.delivered

/-- **A write looks for a slot**, and the ledger notes what came of it. -/
theorem Accounts.settle (h : Accounts n x l) (hw : x.pendingWrite i = some w)
    {after : Buffer α × WriteState} (hs : x.buffer.Settles i w.item after) :
    Accounts n (x.settle i after).1 (l.ended i (x.settle i after).2) := by
  cases hs with
  | accepted hb => exact h.accept hw hb
  | closed => exact h.abandon hw
  | pending hb => exact h.wait hw hb

/-! ## Steps -/

/-- What is noted of a write that looked for a slot. -/
theorem note_settle (x : Exchange α) (l : Ledger α) (writer token : Nat) (item : α) (i : Ticket)
    (after : Buffer α × WriteState) :
    l.note (.write writer token item) (x.settle i after).2
      = (l.opened item).ended l.begun.length (x.settle i after).2 := by
  unfold settle
  cases after.2 with
  | accepted => rfl
  | closed => rfl
  | pending => rfl

theorem Accounts.write (h : Accounts n x l) (writer token : Nat) (item : α) :
    Accounts n (x.write writer token item).1
      (l.note (.write writer token item) (x.write writer token item).2) := by
  by_cases hwriter : x.hasWriter writer = true
  · have hbegun := h.beginWrite ⟨item, x.tokens.getD token token⟩
    have hw : (x.beginWrite ⟨item, x.tokens.getD token token⟩).pendingWrite x.writes.length
        = some ⟨item, x.tokens.getD token token⟩ := by
      rw [pendingWrite_beginWrite, if_pos rfl]
    have hticket := h.begun
    rw [x.write_eq hwriter]
    split
    · have habandoned := hbegun.abandon hw
      rw [← hticket] at habandoned ⊢
      exact habandoned
    · -- the write looks for a slot under its new ticket
      rw [note_settle, hticket]
      exact hbegun.settle hw (Buffer.settles_startWrite h.not_mem_pending item)
  · unfold Exchange.write
    rw [if_neg hwriter]
    exact h

theorem Accounts.poll (h : Accounts n x l) (i : Ticket) :
    Accounts n (x.poll i).1 (l.ended i (x.poll i).2) := by
  cases hw : x.pendingWrite i with
  | none =>
    rw [show x.poll i = (x, .finished) by unfold Exchange.poll; rw [hw]]
    exact h
  | some w =>
    rw [poll_eq hw]
    split
    · exact h.abandon hw
    · exact h.settle hw (Buffer.settles_resumeWrite x.buffer i w.item)

theorem Accounts.dropWrite (h : Accounts n x l) (i : Ticket) :
    Accounts n (x.step (.dropWrite i)).1 (l.note (.dropWrite i) (x.step (.dropWrite i)).2) := by
  cases hw : x.pendingWrite i with
  | none =>
    rw [show x.step (.dropWrite i) = (x, .was false) by simp only [Exchange.step, hw]]
    exact h
  | some w =>
    rw [step_dropWrite hw]
    exact h.abandon hw

/-- **The oldest item is received.** -/
theorem Accounts.take (h : Accounts n x l) {item : α} {items : List α}
    (hq : x.buffer.queue = item :: items) :
    Accounts n { x with buffer := Buffer.release { x.buffer with queue := items } }
      { l with received := l.received ++ [item] } where
  sound := h.sound.take hq
  capacity := (Buffer.capacity_release _).trans h.capacity
  reading := (Buffer.closed_release _).trans h.reading
  begun := h.begun
  item := h.item
  waits := fun t ht => by
    rw [show ({ x with buffer := Buffer.release _ } : Exchange α).buffer.pending = _ from
      Buffer.pending_release _] at ht
    exact h.waits t ht
  settled := h.settled
  once := h.once
  delivered := by
    obtain ⟨lost, hitems, hlost⟩ := h.delivered
    refine ⟨lost, hitems.trans ?_, hlost⟩
    show _ = (l.received ++ [item] ++ (Buffer.release _).queue ++ lost).map some
    rw [Buffer.queue_release, hq, List.append_cons, List.append_assoc]

theorem Accounts.receive (h : Accounts n x l) (waits : Bool) :
    Accounts n (x.receive waits).1 (l.read (x.receive waits).2) := by
  unfold Exchange.receive
  by_cases hreader : x.reader = true
  · rw [if_pos hreader]
    cases hq : x.buffer.queue with
    | nil =>
      rw [Buffer.take_nil hq]
      show Accounts n x (l.read (if _ then _ else _))
      split <;> exact h
    | cons item items =>
      rw [Buffer.take_cons hq]
      exact h.take hq
  · rw [if_neg hreader]
    exact h

/-- **The reader goes**, and what is queued is lost. -/
theorem Accounts.dropReader (h : Accounts n x l) :
    Accounts n (x.step .dropReader).1 (l.note .dropReader (x.step .dropReader).2) := by
  by_cases hreader : x.reader = true
  · rw [show x.step .dropReader = ({ x with reader := false, buffer := x.buffer.close }, .was true)
      from if_pos hreader]
    refine ⟨h.sound.close, h.capacity, rfl, h.begun, h.item, fun t ht => ?_, h.settled, h.once, ?_⟩
    · rw [show (x.buffer.close).pending = x.buffer.granted from List.append_nil _] at ht
      exact h.waits t (List.mem_append_left _ ht)
    · obtain ⟨lost, hitems, -, hnone⟩ := h.delivered
      obtain rfl := hnone hreader
      refine ⟨x.buffer.queue, ?_, ?_, fun hr => absurd hr Bool.false_ne_true⟩
      · show l.items l.accepted = (l.received ++ [] ++ x.buffer.queue).map some
        rw [hitems, List.append_nil, List.append_nil]
      · have hsum := (h.sound.conserved (h.isOpen_iff.mpr hreader)).1
        have hcap := h.capacity
        omega
  · rw [show x.step .dropReader = (x, .was false) from if_neg hreader]
    exact h

/-- **Every step keeps the accounts.** -/
theorem Accounts.step (h : Accounts n x l) (s : ExchangeStep α) :
    Accounts n (x.step s).1 (l.note s (x.step s).2) := by
  cases s with
  | write writer token item => exact h.write writer token item
  | poll i => exact h.poll i
  | dropWrite i => exact h.dropWrite i
  | receive => exact h.receive true
  | tryReceive => exact h.receive false
  | cancel i => exact h.same rfl rfl rfl
  | newToken i => exact h.same rfl rfl rfl
  | cloneWriter i => exact h.same rfl rfl rfl
  | dropWriter i => exact h.same rfl rfl rfl
  | dropReader => exact h.dropReader

/-- **Every run keeps the accounts.** -/
theorem Accounts.recordFrom (h : Accounts n x l) (steps : List (ExchangeStep α)) :
    Accounts n (x.recordFrom l steps).1 (x.recordFrom l steps).2 := by
  induction steps generalizing x l with
  | nil => exact h
  | cons s ss ih => exact ih (h.step s)

/-! ## What every ledger shows -/

/-- **An exchange over a buffer with `n` slots that did what the ledger says is
faithful**: it delivers what was accepted, and nothing else. -/
structure Faithful (n : Nat) (x : Exchange α) (l : Ledger α) : Prop where
  /-- What was received are the items of the writes that were accepted first, in
  the order in which they were. -/
  delivered : l.received.map some <+: l.items l.accepted
  /-- At most as many are accepted and not received as there are slots. -/
  bounded : l.accepted.length ≤ l.received.length + n
  /-- No write is accepted twice. -/
  once : l.accepted.Nodup
  /-- No write that failed or was given up was or will be accepted. -/
  never : ∀ t ∈ l.abandoned, t ∉ l.accepted
  /-- An item that such a write had, and no other, is not received. -/
  noGhost : ∀ t ∈ l.abandoned, ∀ item, (∀ u, l.begun[u]? = some item ↔ u = t) →
    item ∉ l.received
  /-- A write whose token has fired before it begins ends with that failure, and
  nothing changes in the buffer. -/
  cancelledFirst : ∀ writer token item, x.hasWriter writer = true →
    x.tokens.getD token token ∈ x.fired →
      x.step (.write writer token item)
        = ({ x with writes := x.writes ++ [none] }, .wrote (.error .writeCancelled))
  /-- If the reader gets nothing more there are no writers, no write waits, and
  everything that was accepted has been received. -/
  exhausted : (x.step .receive).2 = .got none → (∀ i, x.hasWriter i = false)
    ∧ (∀ i, x.pendingWrite i = none) ∧ l.received.map some = l.items l.accepted

theorem Accounts.isPrefix (h : Accounts n x l) : l.received.map some <+: l.items l.accepted := by
  obtain ⟨lost, hitems, -⟩ := h.delivered
  rw [hitems, List.append_assoc, List.map_append]
  exact List.prefix_append _ _

theorem Accounts.bounded (h : Accounts n x l) : l.accepted.length ≤ l.received.length + n := by
  obtain ⟨lost, hitems, hlost, hnone⟩ := h.delivered
  have hlength := congrArg List.length hitems
  rw [show (l.items l.accepted).length = l.accepted.length from List.length_map _,
    List.length_map, List.length_append, List.length_append] at hlength
  cases hreader : x.reader with
  | true =>
    obtain rfl := hnone hreader
    have hsum := (h.sound.conserved (h.isOpen_iff.mpr hreader)).1
    have hcap := h.capacity
    rw [List.length_nil] at hlength
    omega
  | false =>
    have hclosed : x.buffer.closed = true := by
      rw [h.reading, hreader]
      rfl
    rw [h.sound.emptied hclosed, List.length_nil] at hlength
    omega

theorem Accounts.never (h : Accounts n x l) : ∀ t ∈ l.abandoned, t ∉ l.accepted :=
  fun t hab hac => (List.nodup_append.mp h.once).2.2 t hac t hab rfl

theorem Accounts.noGhost (h : Accounts n x l) {t : Ticket} (ht : t ∈ l.abandoned) {item : α}
    (honly : ∀ u, l.begun[u]? = some item ↔ u = t) : item ∉ l.received := by
  intro hitem
  have hmem := h.isPrefix.subset (List.mem_map_of_mem hitem)
  obtain ⟨u, hu, hbegun⟩ := List.mem_map.mp hmem
  obtain rfl := (honly u).mp hbegun
  exact h.never u ht hu

/-- A write under a token that has fired does not get to the buffer. -/
theorem Accounts.cancelledFirst (h : Accounts n x l) {writer token : Nat} (item : α)
    (hwriter : x.hasWriter writer = true) (hfired : x.tokens.getD token token ∈ x.fired) :
    x.step (.write writer token item)
      = ({ x with writes := x.writes ++ [none] }, .wrote (.error .writeCancelled)) := by
  show x.write writer token item = _
  rw [x.write_eq hwriter, if_pos hfired]
  unfold cancelWrite
  refine Prod.ext ?_ rfl
  show ({ x with
      buffer := x.buffer.abandonWrite x.writes.length
      writes := (x.writes ++ [some _]).set x.writes.length none } : Exchange α) = _
  rw [Buffer.abandonWrite_of_not_mem h.not_mem_pending, List.set_append_right _ _ (Nat.le_refl _),
    Nat.sub_self]
  rfl

/-- If nothing can be written any more, there is nobody who could. -/
theorem gone_of_canWrite_eq_false (h : x.canWrite = false) :
    (∀ i, x.hasWriter i = false) ∧ ∀ i, x.pendingWrite i = none := by
  obtain ⟨hwriters, hwrites⟩ := Bool.or_eq_false_iff.mp h
  refine ⟨fun i => ?_, fun i => ?_⟩
  · unfold hasWriter
    rw [List.getD_eq_getElem?_getD]
    cases hi : x.writers[i]? with
    | none => rfl
    | some present =>
      exact eq_false_of_ne_true (List.any_eq_false.mp hwriters present (List.mem_of_getElem? hi))
  · unfold pendingWrite
    rw [List.getD_eq_getElem?_getD]
    cases hi : x.writes[i]? with
    | none => rfl
    | some write =>
      have hnone := List.any_eq_false.mp hwrites write (List.mem_of_getElem? hi)
      exact Option.not_isSome_iff_eq_none.mp hnone

theorem Accounts.exhausted (h : Accounts n x l) (hnone : (x.step .receive).2 = .got none) :
    (∀ i, x.hasWriter i = false) ∧ (∀ i, x.pendingWrite i = none)
      ∧ l.received.map some = l.items l.accepted := by
  have hres : (x.receive true).2 = .got none := hnone
  unfold Exchange.receive at hres
  by_cases hreader : x.reader = true
  · rw [if_pos hreader] at hres
    cases hq : x.buffer.queue with
    | cons item items =>
      rw [Buffer.take_cons hq] at hres
      exact nomatch hres
    | nil =>
      rw [Buffer.take_nil hq] at hres
      have hwrite : x.canWrite = false := by
        cases hw : x.canWrite with
        | false => rfl
        | true => rw [hw] at hres; exact nomatch hres
      obtain ⟨lost, hitems, -, hlost⟩ := h.delivered
      obtain ⟨hwriters, hwrites⟩ := gone_of_canWrite_eq_false hwrite
      refine ⟨hwriters, hwrites, ?_⟩
      rw [hitems, hlost hreader, hq, List.append_nil, List.append_nil]
  · rw [if_neg hreader] at hres
    exact nomatch hres

/-- **Every run over a buffer that was made is faithful**: whatever the capacity
and the steps, what is received is what was accepted, in that order, without
loss, repetition, or anything that was given up, and no more is under way than the
buffer was made for. -/
theorem record_faithful (capacity : Nat) (b : Buffer α)
    (hb : (Buffer.create capacity).value = .done b) (steps : List (ExchangeStep α)) :
    b.capacity = (if capacity = 0 then defaultBufferCapacity else capacity)
      ∧ Faithful b.capacity (record b steps).1 (record b steps).2 := by
  refine ⟨Buffer.capacity_of_create hb, ?_⟩
  obtain ⟨n, rfl⟩ := Buffer.create_done hb
  have h : Accounts n _ _ := (Accounts.start n).recordFrom steps
  exact ⟨h.isPrefix, h.bounded, (List.nodup_append.mp h.once).1, h.never,
    fun _ ht _ honly => h.noGhost ht honly,
    fun _ _ item hwriter hfired => h.cancelledFirst item hwriter hfired, h.exhausted⟩

/-- A second write waits for the only slot, is granted it, and is cancelled
before it goes on. -/
def grantedThenCancelled : List (ExchangeStep String) :=
  [.write 0 0 "first", .write 0 1 "second", .receive, .cancel 1, .poll 1, .write 0 0 "third",
    .receive]

/-- The slot that the second write was granted is free for the third. -/
theorem record_faithful_grantedThenCancelled :
    (Buffer.create 1 : Log.Reported (Attempt (Buffer String))).value = .done (Buffer.empty 1)
      ∧ Faithful 1 (record (Buffer.empty 1) grantedThenCancelled).1
        (record (Buffer.empty 1) grantedThenCancelled).2
      ∧ (record (Buffer.empty 1) grantedThenCancelled).2.abandoned = [1]
      ∧ (record (Buffer.empty 1) grantedThenCancelled).2.received = ["first", "third"] :=
  ⟨rfl, (record_faithful 1 (Buffer.empty 1) rfl grantedThenCancelled).2, rfl, rfl⟩

end Exchange

end IncidentMemory
