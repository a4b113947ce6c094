import CrystalServer.Network.Connection

/-! # What a connection sends

One handler at a time is on its way for the message at the head of the queue, so the messages are prepared and written once each
and in the order in which they were accepted. Where nothing fails all of them are written, and a connection that was closed in
the meantime closes its socket behind the last one. -/

namespace CrystalServer.SendQueue
open Lib
variable {Message : Type*} {c : SendQueue Message}

/-- How many handlers are on their way. -/
def handlers (c : SendQueue Message) : Nat := c.posted + c.preparing.length + c.writing.length

/-- Where the message at the head of the queue is. -/
inductive Stage (c : SendQueue Message) : Prop
  | idle (queue : c.messageQueue = []) (posted : c.posted = 0) (preparing : c.preparing = []) (writing : c.writing = [])
      (prepared : c.prepared = c.written) (accepted : c.accepted = c.written)
  | posted (m : Message) (ms : List Message) (queue : c.messageQueue = m :: ms) (posted : c.posted = 1)
      (preparing : c.preparing = []) (writing : c.writing = []) (prepared : c.prepared = c.written)
      (accepted : c.accepted = c.written ++ m :: ms)
  | preparing (m : Message) (ms : List Message) (queue : c.messageQueue = m :: ms) (posted : c.posted = 0)
      (preparing : c.preparing = [m]) (writing : c.writing = []) (prepared : c.prepared = c.written ++ [m])
      (accepted : c.accepted = c.written ++ m :: ms)
  | writing (m : Message) (ms : List Message) (queue : c.messageQueue = m :: ms) (posted : c.posted = 0)
      (preparing : c.preparing = []) (writing : c.writing = [m]) (prepared : c.prepared = c.written ++ [m])
      (accepted : c.accepted = c.written ++ m :: ms)

/-- A handler failed, and nothing is sent any more. -/
structure Stopped (c : SendQueue Message) : Prop where
  closed : c.connectionState = .CONNECTION_STATE_CLOSED
  posted : c.posted = 0
  preparing : c.preparing = []
  writing : c.writing = []
  prepared : c.prepared <+: c.accepted
  written : c.written = c.prepared ∨ ∃ m, c.prepared = c.written ++ [m]

structure Inv (c : SendQueue Message) : Prop where
  stage : Stage c ∨ Stopped c
  closed : c.socketOpen = false → c.connectionState = .CONNECTION_STATE_CLOSED

/-- A post or a write that fails, a timeout, and a close that does not wait. -/
def Event.fails : Event Message → Bool
  | .send _ throws => throws
  | .close force => force
  | .handleTimeout => true
  | .internalWorker => false
  | .internalSend _ throws => throws
  | .onWriteOperation _ error => error

/-! ### Closing -/

/-- Two states that differ in nothing but the socket and the state of the connection. -/
structure Same (c d : SendQueue Message) : Prop where
  queue : d.messageQueue = c.messageQueue
  posted : d.posted = c.posted
  preparing : d.preparing = c.preparing
  writing : d.writing = c.writing
  accepted : d.accepted = c.accepted
  prepared : d.prepared = c.prepared
  written : d.written = c.written

theorem Stage.same {d : SendQueue Message} (h : Stage c) (hs : Same c d) : Stage d := by
  obtain ⟨h₁, h₂, h₃, h₄, h₅, h₆, h₇⟩ := hs
  cases h with
  | idle q p r w e a => exact .idle (h₁ ▸ q) (h₂ ▸ p) (h₃ ▸ r) (h₄ ▸ w) (by rw [h₆, h₇, e]) (by rw [h₅, h₇, a])
  | posted m ms q p r w e a =>
    exact .posted m ms (h₁ ▸ q) (h₂ ▸ p) (h₃ ▸ r) (h₄ ▸ w) (by rw [h₆, h₇, e]) (by rw [h₅, h₇, a])
  | preparing m ms q p r w e a =>
    exact .preparing m ms (h₁ ▸ q) (h₂ ▸ p) (h₃ ▸ r) (h₄ ▸ w) (by rw [h₆, h₇, e]) (by rw [h₅, h₇, a])
  | writing m ms q p r w e a =>
    exact .writing m ms (h₁ ▸ q) (h₂ ▸ p) (h₃ ▸ r) (h₄ ▸ w) (by rw [h₆, h₇, e]) (by rw [h₅, h₇, a])

theorem close_same (force : Bool) (c : SendQueue Message) : Same c (c.close force) := by
  unfold close closeSocket
  split
  · exact ⟨rfl, rfl, rfl, rfl, rfl, rfl, rfl⟩
  · dsimp only
    split <;> exact ⟨rfl, rfl, rfl, rfl, rfl, rfl, rfl⟩

theorem close_closed (force : Bool) (c : SendQueue Message) :
    (c.close force).connectionState = .CONNECTION_STATE_CLOSED := by
  unfold close closeSocket
  split
  · assumption
  · dsimp only
    split <;> rfl

/-- A connection that was closed is not closed again. -/
theorem close_of_closed (h : c.connectionState = .CONNECTION_STATE_CLOSED) (force : Bool) : c.close force = c := if_pos h

theorem Inv.close (h : Inv c) (force : Bool) : Inv (c.close force) := by
  refine ⟨?_, fun _ => close_closed force c⟩
  rcases h.stage with hs | hs
  · exact .inl (hs.same (close_same force c))
  · rw [close_of_closed hs.closed]
    exact .inr hs

/-- A handler fails, and the connection is closed. -/
theorem inv_stopped (hposted : c.posted = 0) (hpreparing : c.preparing = []) (hwriting : c.writing = [])
    (hprepared : c.prepared <+: c.accepted) (hwritten : c.written = c.prepared ∨ ∃ m, c.prepared = c.written ++ [m]) :
    Inv (c.close true) := by
  have hs := close_same true c
  refine ⟨.inr ⟨close_closed true c, hs.posted.trans hposted, hs.preparing.trans hpreparing, hs.writing.trans hwriting, ?_, ?_⟩,
    fun _ => close_closed true c⟩
  · rw [hs.prepared, hs.accepted]
    exact hprepared
  · rw [hs.prepared, hs.written]
    exact hwritten

/-! ### Each step -/

/-- Nothing is added to what a connection sends once it is closed. -/
theorem send_of_closed (h : c.connectionState = .CONNECTION_STATE_CLOSED) (m : Message) (throws : Bool) :
    c.send m throws = c := if_pos h

theorem Stage.send (h : Stage c) (hopen : c.socketOpen = true) (m : Message) : Stage (c.send m false) := by
  unfold SendQueue.send
  split
  · exact h
  · cases h with
    | idle q p r w e a =>
      simp only [q, List.isEmpty_nil, if_true, hopen, Bool.false_eq_true, if_false]
      exact .posted m [] rfl (by simp [p]) r w e (by simp [a])
    | posted m' ms q p r w e a =>
      simp only [q, List.isEmpty_cons, Bool.false_eq_true, if_false]
      exact .posted m' (ms ++ [m]) rfl p r w e (by simp [a])
    | preparing m' ms q p r w e a =>
      simp only [q, List.isEmpty_cons, Bool.false_eq_true, if_false]
      exact .preparing m' (ms ++ [m]) rfl p r w e (by simp [a])
    | writing m' ms q p r w e a =>
      simp only [q, List.isEmpty_cons, Bool.false_eq_true, if_false]
      exact .writing m' (ms ++ [m]) rfl p r w e (by simp [a])

/-- A post is tried only where nothing is on its way. -/
theorem send_throws (hopen : c.socketOpen = true) (m : Message) : c.send m true = c.send m false ∨
    c.messageQueue = [] ∧ c.send m true = { c with messageQueue := [m], accepted := c.accepted ++ [m] }.close true := by
  unfold SendQueue.send
  split
  · exact .inl rfl
  · cases hq : c.messageQueue with
    | nil =>
      simp only [List.isEmpty_nil, if_true, hopen, List.nil_append]
      exact .inr ⟨trivial, trivial⟩
    | cons m' ms => exact .inl rfl

theorem send_socket (hopen : c.socketOpen = true) (m : Message) : (c.send m false).socketOpen = true ∧
    (c.send m false).connectionState = c.connectionState := by
  unfold SendQueue.send
  split
  · exact ⟨hopen, rfl⟩
  · dsimp only
    split
    · simp only [hopen, Bool.false_eq_true, if_false, and_self]
    · exact ⟨hopen, rfl⟩

theorem Inv.send (h : Inv c) (m : Message) (throws : Bool) : Inv (c.send m throws) := by
  by_cases hc : c.connectionState = .CONNECTION_STATE_CLOSED
  · rwa [send_of_closed hc]
  · have hopen : c.socketOpen = true := by
      by_contra hclosed
      exact hc (h.closed (Bool.eq_false_iff.mpr hclosed))
    have hs : Stage c := h.stage.resolve_right fun hs => hc hs.closed
    have hsent : Inv (c.send m false) := by
      refine ⟨.inl (hs.send hopen m), fun hclosed => ?_⟩
      rw [(send_socket hopen m).1] at hclosed
      cases hclosed
    cases throws with
    | false => exact hsent
    | true =>
      rcases send_throws hopen m with he | ⟨hq, he⟩
      · rwa [he]
      · rw [he]
        cases hs with
        | idle q p r w e a =>
          refine inv_stopped p r w ?_ (.inl e.symm)
          rw [e, a]
          exact List.prefix_append _ _
        | posted _ _ q _ _ _ _ _ => exact absurd (q.symm.trans hq) (by simp)
        | preparing _ _ q _ _ _ _ _ => exact absurd (q.symm.trans hq) (by simp)
        | writing _ _ q _ _ _ _ _ => exact absurd (q.symm.trans hq) (by simp)

theorem Stage.internalWorker (h : Stage c) : Stage c.internalWorker ∧ c.internalWorker.messageQueue = c.messageQueue ∧
    c.internalWorker.connectionState = c.connectionState ∧ c.internalWorker.socketOpen = c.socketOpen := by
  unfold SendQueue.internalWorker
  cases h with
  | posted m ms q p r w e a =>
    rw [if_neg (by omega)]
    simp only [q, p]
    exact ⟨.preparing m ms rfl rfl (by simp [prepare, r]) w (by simp [prepare, e]) a, rfl, rfl, rfl⟩
  | idle q p r w e a => rw [if_pos p]; exact ⟨.idle q p r w e a, rfl, rfl, rfl⟩
  | preparing m ms q p r w e a => rw [if_pos p]; exact ⟨.preparing m ms q p r w e a, rfl, rfl, rfl⟩
  | writing m ms q p r w e a => rw [if_pos p]; exact ⟨.writing m ms q p r w e a, rfl, rfl, rfl⟩

theorem Inv.internalWorker (h : Inv c) : Inv c.internalWorker := by
  rcases h.stage with hs | hs
  · obtain ⟨hstage, -, hstate, hsocket⟩ := hs.internalWorker
    exact ⟨.inl hstage, fun hc => hstate.trans (h.closed (hsocket.symm.trans hc))⟩
  · rwa [SendQueue.internalWorker, if_pos hs.posted]

theorem internalSend_same (i : Nat) : (c.internalSend i false).messageQueue = c.messageQueue ∧
    (c.internalSend i false).connectionState = c.connectionState ∧ (c.internalSend i false).socketOpen = c.socketOpen := by
  unfold SendQueue.internalSend
  split <;> exact ⟨rfl, rfl, rfl⟩

theorem internalSend_of_nil (h : c.preparing = []) (i : Nat) (throws : Bool) : c.internalSend i throws = c := by
  rw [SendQueue.internalSend, h, List.getElem?_nil]

/-- A message was prepared and its write is started, or there is none with this number. -/
theorem Stage.internalSend (h : Stage c) (i : Nat) : Stage (c.internalSend i false) ∧
    ∀ throws, Inv (c.internalSend i throws) ∨ c.internalSend i throws = c.internalSend i false := by
  cases h with
  | preparing m ms q p r w e a =>
    unfold SendQueue.internalSend
    rw [r]
    cases i with
    | zero =>
      refine ⟨.writing m ms q p rfl (by simp [w]) e a, fun throws => ?_⟩
      cases throws with
      | true =>
        refine .inl (inv_stopped p rfl w ?_ (.inr ⟨m, e⟩))
        rw [e, a]
        exact ⟨ms, by simp⟩
      | false => exact .inr rfl
    | succ i => exact ⟨.preparing m ms q p r w e a, fun _ => .inr rfl⟩
  | idle q p r w e a =>
    simp only [internalSend_of_nil r]
    exact ⟨.idle q p r w e a, fun _ => .inr trivial⟩
  | posted m ms q p r w e a =>
    simp only [internalSend_of_nil r]
    exact ⟨.posted m ms q p r w e a, fun _ => .inr trivial⟩
  | writing m ms q p r w e a =>
    simp only [internalSend_of_nil r]
    exact ⟨.writing m ms q p r w e a, fun _ => .inr trivial⟩

theorem Inv.internalSend (h : Inv c) (i : Nat) (throws : Bool) : Inv (c.internalSend i throws) := by
  rcases h.stage with hs | hs
  · obtain ⟨hstage, hthrows⟩ := hs.internalSend i
    obtain ⟨-, hstate, hsocket⟩ := internalSend_same (c := c) i
    rcases hthrows throws with hi | he
    · exact hi
    · rw [he]
      exact ⟨.inl hstage, fun hc => hstate.trans (h.closed (hsocket.symm.trans hc))⟩
  · rwa [internalSend_of_nil hs.preparing]

theorem onWriteOperation_of_nil (h : c.writing = []) (i : Nat) (error : Bool) : c.onWriteOperation i error = c := by
  rw [SendQueue.onWriteOperation, h, List.getElem?_nil]

/-- A write has ended, or there is none with this number. -/
theorem Stage.onWriteOperation (h : Stage c) (i : Nat) : Stage (c.onWriteOperation i false) ∧
    (∀ error, Inv (c.onWriteOperation i error) ∨ c.onWriteOperation i error = c.onWriteOperation i false) ∧
    (c.onWriteOperation i false = c ∨ c.messageQueue ≠ [] ∧
      (c.onWriteOperation i false).connectionState = c.connectionState ∧
      ((c.onWriteOperation i false).socketOpen = false ↔
        c.socketOpen = false ∨ c.connectionState = .CONNECTION_STATE_CLOSED ∧ (c.onWriteOperation i false).messageQueue = [])) := by
  cases h with
  | writing m ms q p r w e a =>
    cases i with
    | zero =>
      have herror : Inv (c.onWriteOperation 0 true) := by
        rw [SendQueue.onWriteOperation, w]
        refine inv_stopped p r rfl ?_ (.inr ⟨m, e⟩)
        rw [e, a]
        exact ⟨ms, by simp⟩
      rw [Bool.forall_bool]
      refine ⟨?_, ⟨.inr rfl, .inl herror⟩, .inr ⟨by simp [q], ?_⟩⟩ <;>
        simp only [SendQueue.onWriteOperation, w, List.getElem?_cons_zero, Bool.false_eq_true, if_false, q, List.tail_cons]
      · cases ms with
        | nil =>
          dsimp only
          split <;> exact .idle rfl p r rfl e a
        | cons m' ms => exact .preparing m' ms rfl p (by simp [prepare, r]) rfl (by simp [prepare, e]) (by simp [prepare, a])
      · cases ms with
        | nil =>
          dsimp only
          split
          · exact ⟨rfl, by simp_all [closeSocket]⟩
          · exact ⟨rfl, by simp_all⟩
        | cons m' ms => exact ⟨rfl, by simp [prepare]⟩
    | succ i =>
      have hsame (error : Bool) : c.onWriteOperation (i + 1) error = c := by simp [SendQueue.onWriteOperation, w]
      simp only [hsame]
      exact ⟨.writing m ms q p r w e a, fun _ => .inr trivial, .inl trivial⟩
  | idle q p r w e a =>
    simp only [onWriteOperation_of_nil w]
    exact ⟨.idle q p r w e a, fun _ => .inr trivial, .inl trivial⟩
  | posted m ms q p r w e a =>
    simp only [onWriteOperation_of_nil w]
    exact ⟨.posted m ms q p r w e a, fun _ => .inr trivial, .inl trivial⟩
  | preparing m ms q p r w e a =>
    simp only [onWriteOperation_of_nil w]
    exact ⟨.preparing m ms q p r w e a, fun _ => .inr trivial, .inl trivial⟩

theorem Inv.onWriteOperation (h : Inv c) (i : Nat) (error : Bool) : Inv (c.onWriteOperation i error) := by
  rcases h.stage with hs | hs
  · obtain ⟨hstage, herror, hsame⟩ := hs.onWriteOperation i
    rcases herror error with hi | he
    · exact hi
    · rw [he]
      rcases hsame with hsame | ⟨-, hstate, hsocket⟩
      · rwa [hsame]
      · refine ⟨.inl hstage, fun hc => hstate.trans ?_⟩
        rcases hsocket.mp hc with hc | ⟨hc, -⟩
        · exact h.closed hc
        · exact hc
  · rwa [onWriteOperation_of_nil hs.writing]

theorem Inv.step (h : Inv c) (e : Event Message) : Inv (c.step e) := by
  cases e with
  | send m throws => exact h.send m throws
  | close force => exact h.close force
  | handleTimeout => exact h.close true
  | internalWorker => exact h.internalWorker
  | internalSend i throws => exact h.internalSend i throws
  | onWriteOperation i error => exact h.onWriteOperation i error

theorem stage_accept (Message : Type*) : Stage (accept Message) := .idle rfl rfl rfl rfl rfl rfl

theorem inv_run (es : List (Event Message)) : Inv (run step (accept Message) es) :=
  run_induction Inv (fun _ e h => h.step e) es ⟨.inl (stage_accept Message), fun h => absurd h (by simp [accept])⟩

/-! ### The order of the messages -/

/-- What is sent is in order, and a handler is on its way exactly where a message waits. -/
theorem Stage.in_order (h : Stage c) : c.handlers ≤ 1 ∧ c.written <+: c.prepared ∧ c.prepared <+: c.accepted ∧
    c.prepared.length ≤ c.written.length + 1 ∧
    (∀ m ∈ c.preparing ++ c.writing, c.messageQueue.head? = some m ∧ c.prepared = c.written ++ [m]) ∧
    c.accepted = c.written ++ c.messageQueue ∧ (c.handlers = 0 ↔ c.messageQueue = []) := by
  unfold handlers
  cases h with
  | idle q p r w e a => simp [q, p, r, w, e, a]
  | posted m ms q p r w e a => simp [q, p, r, w, e, a]
  | preparing m ms q p r w e a =>
    have hprefix : c.written ++ [m] <+: c.written ++ m :: ms := ⟨ms, by simp⟩
    simp [q, p, r, w, e, a, hprefix]
  | writing m ms q p r w e a =>
    have hprefix : c.written ++ [m] <+: c.written ++ m :: ms := ⟨ms, by simp⟩
    simp [q, p, r, w, e, a, hprefix]

theorem Inv.prefixes {c : SendQueue Message} (h : Inv c) : c.written <+: c.prepared ∧ c.prepared <+: c.accepted := by
  rcases h.stage with hs | ⟨-, p, r, w, e, l⟩
  · obtain ⟨-, hwritten, hprepared, -⟩ := hs.in_order
    exact ⟨hwritten, hprepared⟩
  · refine ⟨?_, e⟩
    rcases l with l | ⟨m, l⟩
    · exact l ▸ List.prefix_rfl
    · exact l ▸ List.prefix_append _ _

/-- At most one handler is on its way, with the message at the head of the queue. What was written is the first part of what was
    prepared, which is the first part of what was accepted, each message once. As long as the connection is not closed nothing
    is lost, and a handler is on its way whenever a message waits. -/
theorem sends_in_order (es : List (Event Message)) :
    let c := run step (accept Message) es
    c.handlers ≤ 1 ∧ c.written <+: c.prepared ∧ c.prepared <+: c.accepted ∧ c.prepared.length ≤ c.written.length + 1 ∧
      (∀ m ∈ c.preparing ++ c.writing, c.messageQueue.head? = some m ∧ c.prepared = c.written ++ [m]) ∧
      (c.connectionState ≠ .CONNECTION_STATE_CLOSED →
        c.accepted = c.written ++ c.messageQueue ∧ (c.handlers = 0 ↔ c.messageQueue = [])) := by
  intro c
  have h : Inv c := inv_run es
  obtain ⟨hwritten, hprepared⟩ := h.prefixes
  rcases h.stage with hs | ⟨hclosed, p, r, w, -, l⟩
  · obtain ⟨hone, -, -, hlength, hhead, hall⟩ := hs.in_order
    exact ⟨hone, hwritten, hprepared, hlength, hhead, fun _ => hall⟩
  · refine ⟨by simp [handlers, p, r, w], hwritten, hprepared, ?_, by simp [r, w], fun hc => absurd hclosed hc⟩
    rcases l with l | ⟨m, l⟩
    · exact l ▸ Nat.le_succ _
    · rw [l, List.length_append]
      exact Nat.le_refl _

/-! ### Where nothing fails -/

/-- The socket is closed exactly behind the last message of a connection that was closed. -/
structure Sound (c : SendQueue Message) : Prop where
  stage : Stage c
  socket : c.socketOpen = false ↔ c.connectionState = .CONNECTION_STATE_CLOSED ∧ c.messageQueue = []

theorem Sound.close (h : Sound c) : Sound (c.close false) := by
  refine ⟨h.stage.same (close_same false c), ?_⟩
  rw [(close_same false c).queue]
  simp only [close_closed, true_and]
  by_cases hc : c.connectionState = .CONNECTION_STATE_CLOSED
  · have hsocket := h.socket
    rw [close_of_closed hc]
    simp only [hc, true_and] at hsocket
    exact hsocket
  · have hopen : c.socketOpen = true := by
      by_contra hclosed
      exact hc (h.socket.mp (Bool.eq_false_iff.mpr hclosed)).1
    rw [SendQueue.close, if_neg hc]
    cases hq : c.messageQueue with
    | nil => simp [closeSocket]
    | cons m ms => simp [hopen]

theorem Sound.send (h : Sound c) (m : Message) : Sound (c.send m false) := by
  by_cases hc : c.connectionState = .CONNECTION_STATE_CLOSED
  · rwa [send_of_closed hc]
  · have hopen : c.socketOpen = true := by
      by_contra hclosed
      exact hc (h.socket.mp (Bool.eq_false_iff.mpr hclosed)).1
    obtain ⟨hsocket, hstate⟩ := send_socket hopen m
    refine ⟨h.stage.send hopen m, iff_of_false (by simp [hsocket]) ?_⟩
    rintro ⟨hclosed, -⟩
    exact hc (hstate.symm.trans hclosed)

theorem Sound.internalWorker (h : Sound c) : Sound c.internalWorker := by
  obtain ⟨hstage, hqueue, hstate, hsocket⟩ := h.stage.internalWorker
  refine ⟨hstage, ?_⟩
  rw [hqueue, hstate, hsocket]
  exact h.socket

theorem Sound.internalSend (h : Sound c) (i : Nat) : Sound (c.internalSend i false) := by
  obtain ⟨hqueue, hstate, hsocket⟩ := internalSend_same (c := c) i
  refine ⟨(h.stage.internalSend i).1, ?_⟩
  rw [hqueue, hstate, hsocket]
  exact h.socket

theorem Sound.onWriteOperation (h : Sound c) (i : Nat) : Sound (c.onWriteOperation i false) := by
  obtain ⟨hstage, -, hsame | ⟨hqueue, hstate, hsocket⟩⟩ := h.stage.onWriteOperation i
  · rwa [hsame]
  · refine ⟨hstage, ?_⟩
    rw [hsocket, hstate]
    constructor
    · rintro (hc | hc)
      · exact absurd (h.socket.mp hc).2 hqueue
      · exact hc
    · exact .inr

theorem Sound.step (h : Sound c) (e : Event Message) (hf : e.fails = false) : Sound (c.step e) := by
  cases e with
  | send m throws =>
    cases (show throws = false from hf)
    exact h.send m
  | close force =>
    cases (show force = false from hf)
    exact h.close
  | handleTimeout => cases hf
  | internalWorker => exact h.internalWorker
  | internalSend i throws =>
    cases (show throws = false from hf)
    exact h.internalSend i
  | onWriteOperation i error =>
    cases (show error = false from hf)
    exact h.onWriteOperation i

/-- The handler that is on its way goes on. -/
def handle (c : SendQueue Message) : SendQueue Message :=
  if c.posted ≠ 0 then c.internalWorker
  else if c.preparing ≠ [] then c.internalSend 0 false
  else c.onWriteOperation 0 false

/-- How many times handlers go on until everything is written. -/
def remaining (c : SendQueue Message) : Nat := c.posted + 2 * c.messageQueue.length - c.writing.length

theorem Sound.handle (h : Sound c) : Sound c.handle := by
  unfold SendQueue.handle
  split
  · exact h.internalWorker
  · split
    · exact h.internalSend 0
    · exact h.onWriteOperation 0

/-- Each time one handler less remains, and nothing but the sending goes on. -/
theorem Stage.handle (h : Stage c) : c.handle.remaining = c.remaining - 1 ∧ c.handle.accepted = c.accepted ∧
    c.handle.connectionState = c.connectionState := by
  cases h with
  | idle q p r w e a =>
    rw [SendQueue.handle, if_neg (not_not.mpr p), if_neg (not_not.mpr r), onWriteOperation_of_nil w]
    exact ⟨by simp [remaining, p, q], rfl, rfl⟩
  | posted m ms q p r w e a =>
    rw [SendQueue.handle, if_pos (by simp [p]), SendQueue.internalWorker, if_neg (by simp [p])]
    simp only [q, prepare]
    exact ⟨by simp [remaining, p, q, w], trivial, trivial⟩
  | preparing m ms q p r w e a =>
    rw [SendQueue.handle, if_neg (not_not.mpr p), if_pos (by simp [r]), SendQueue.internalSend, r]
    exact ⟨by simp [remaining, p, q, w], rfl, rfl⟩
  | writing m ms q p r w e a =>
    rw [SendQueue.handle, if_neg (not_not.mpr p), if_neg (not_not.mpr r), SendQueue.onWriteOperation, w]
    simp only [List.getElem?_cons_zero, Bool.false_eq_true, if_false, q, List.tail_cons]
    cases ms with
    | nil =>
      dsimp only
      split <;> exact ⟨by simp [remaining, closeSocket, p, q, w], rfl, rfl⟩
    | cons m' ms =>
      refine ⟨?_, rfl, rfl⟩
      simp only [remaining, prepare, p, q, w, List.length_cons, List.eraseIdx_cons_zero, List.length_nil]
      omega

theorem Sound.handles (h : Sound c) (n : Nat) : Sound (SendQueue.handle^[n] c) ∧
    (SendQueue.handle^[n] c).remaining = c.remaining - n ∧ (SendQueue.handle^[n] c).accepted = c.accepted ∧
    (SendQueue.handle^[n] c).connectionState = c.connectionState := by
  induction n with
  | zero => exact ⟨h, rfl, rfl, rfl⟩
  | succ n ih =>
    obtain ⟨hs, hr, ha, hc⟩ := ih
    obtain ⟨hr', ha', hc'⟩ := hs.stage.handle
    rw [Function.iterate_succ_apply']
    exact ⟨hs.handle, by rw [hr', hr]; omega, ha'.trans ha, hc'.trans hc⟩

end CrystalServer.SendQueue
