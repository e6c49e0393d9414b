/-
# Events are delivered without gaps

A bus is used by those who publish, by subscribers who take what has arrived and who may leave at any
time, and by pollers who ask for what comes after the last event they got. However their moves
alternate, the events are numbered from 1 without a gap, every subscriber who stays is handed what is
published from its subscription on, and the history is the end of all that was published. A poller
reads the events in order from its cursor. It misses none unless one has left the history before it
polled.

Key definitions: `EventBus.Gains`, `Delivery`, `Delivery.Move`, `Delivery.step`, `Delivery.play`,
`Delivery.Complete`, `Delivery.Follows`.
Key theorems: `EventBus.gains_foldl`, `Delivery.Steady.step`, `Delivery.Listening.step`,
`Delivery.Reads.step`, `Delivery.gapless`.
-/
import Codebook.Event
import Mathlib.Data.List.Nodup
import Mathlib.Logic.Function.Basic

namespace Codebook

/-! ### Numbers in order -/

namespace Published

variable {ps : List Published} {p : Published} {c k : Nat}

/-- Events are numbered from 1 in their order. -/
def Numbered (ps : List Published) : Prop :=
  ps.map sequence = List.range' 1 ps.length

theorem Numbered.getElem (h : Numbered ps) {i : Nat} (hi : i < ps.length) : ps[i].sequence = i + 1 := by
  have hmap : (ps.map sequence)[i]? = some ps[i].sequence := by simp [hi]
  rw [h, List.getElem?_range' hi] at hmap
  simpa [Nat.add_comm] using hmap.symm

theorem Numbered.concat (h : Numbered ps) (hp : p.sequence = ps.length + 1) : Numbered (ps ++ [p]) := by
  rw [Numbered, List.map_append, h, List.length_append, List.length_singleton, List.range'_concat]
  simp [hp, Nat.add_comm]

theorem Numbered.take (h : Numbered ps) (n : Nat) : Numbered (ps.take n) := by
  rcases Nat.le_total n ps.length with hle | hle
  · rw [Numbered, List.map_take, h, List.take_range'_of_length_ge hle, List.length_take,
      Nat.min_eq_left hle]
  · rwa [List.take_of_length_le hle]

theorem Numbered.nodup (h : Numbered ps) : ps.Nodup :=
  List.Nodup.of_map sequence (h ▸ List.nodup_range')

theorem Numbered.le_of_mem_take (h : Numbered ps) (hp : p ∈ ps.take c) : p.sequence ≤ c := by
  obtain ⟨i, hi, rfl⟩ := List.mem_take_iff_getElem.mp hp
  rw [h.getElem]
  omega

theorem Numbered.lt_of_mem_drop (h : Numbered ps) (hp : p ∈ ps.drop c) : c < p.sequence := by
  obtain ⟨i, hi, rfl⟩ := List.mem_drop_iff_getElem.mp hp
  rw [h.getElem]
  omega

/-- The events after a number are the end of the list. -/
theorem Numbered.filter_above (h : Numbered ps) : (ps.filter fun p => c < p.sequence) = ps.drop c := by
  conv_lhs => rw [← List.take_append_drop c ps]
  have hfirst : ((ps.take c).filter fun p => c < p.sequence) = [] :=
    List.filter_eq_nil_iff.mpr fun p hp => by simpa using h.le_of_mem_take hp
  have hrest : ((ps.drop c).filter fun p => c < p.sequence) = ps.drop c :=
    List.filter_eq_self.mpr fun p hp => by simpa using h.lt_of_mem_drop hp
  rw [List.filter_append, hfirst, hrest, List.nil_append]

/-- The events up to a number are the beginning of the list. -/
theorem Numbered.filter_upto (h : Numbered ps) : (ps.filter fun p => p.sequence ≤ c) = ps.take c := by
  conv_lhs => rw [← List.take_append_drop c ps]
  have hfirst : ((ps.take c).filter fun p => p.sequence ≤ c) = ps.take c :=
    List.filter_eq_self.mpr fun p hp => by simpa using h.le_of_mem_take hp
  have hrest : ((ps.drop c).filter fun p => p.sequence ≤ c) = [] :=
    List.filter_eq_nil_iff.mpr fun p hp => by simpa using h.lt_of_mem_drop hp
  rw [List.filter_append, hfirst, hrest, List.append_nil]

/-- Whoever gets some events after the first `c` has come so much farther. -/
theorem Numbered.last (h : Numbered ps) (c k : Nat) :
    (((ps.drop c).take k).getLast?.map sequence).getD c = c + ((ps.drop c).take k).length := by
  cases hlast : ((ps.drop c).take k).getLast? with
  | none => simp [List.getLast?_eq_none_iff.mp hlast]
  | some p =>
    obtain ⟨before, hbefore⟩ := List.getLast?_eq_some_iff.mp hlast
    have hp : ((ps.drop c).take k)[before.length]? = some p := by simp [hbefore]
    rw [List.getElem?_take] at hp
    split_ifs at hp
    rw [List.getElem?_drop] at hp
    obtain ⟨hi, rfl⟩ := List.getElem?_eq_some_iff.mp hp
    simp [hbefore, h.getElem, Nat.add_assoc]

end Published

/-! ### What a bus gains by events -/

/-- The end of the end of a list, with more behind it, is the end of all of it. -/
theorem drop_append_of_end {α : Type} (l more : List α) (m : Nat) :
    (l.drop (l.length - m) ++ more).drop ((l.drop (l.length - m) ++ more).length - m) =
      (l ++ more).drop ((l ++ more).length - m) := by
  simp only [List.drop_append, List.drop_drop, List.length_append, List.length_drop]
  congr 2 <;> omega

/-- Events under the numbers that follow a number. -/
def Published.after (n : Nat) (events : List Event) : List Published :=
  events.mapIdx fun k event => ⟨n + k + 1, event⟩

theorem Published.after_cons (n : Nat) (event : Event) (events : List Event) :
    after n (event :: events) = ⟨n + 1, event⟩ :: after (n + 1) events := by
  simp [after, Nat.add_assoc, Nat.add_comm 1]

namespace EventBus

/-- What becomes of a bus by events that are published on it. They get the numbers that follow, and
the history ends with them as far as it reaches back. Whoever listens has them waiting in their order,
and whoever has stopped listening is forgotten. Nothing else changes, and without events nothing at
all. -/
structure Gains (b : EventBus) (events : List Event) (b' : EventBus) : Prop where
  limit : b'.maxHistory = b.maxHistory
  subscriptions : b'.subscriptions = b.subscriptions
  sequence : b'.sequence = b.sequence + events.length
  history : events ≠ [] →
    b'.history = (b.history ++ Published.after b.sequence events).drop
      ((b.history ++ Published.after b.sequence events).length - b.maxHistory)
  subscribers : events ≠ [] → b'.subscribers = (b.subscribers.filter Subscriber.listens).map fun x =>
    { x with pending := x.pending ++ Published.after b.sequence events }
  nothing : events = [] → b' = b

/-- One more event before the others. -/
theorem Gains.cons {b b' : EventBus} {event : Event} {events : List Event}
    (h : (b.publish event).Gains events b') : b.Gains (event :: events) b' := by
  have hafter := Published.after_cons b.sequence event events
  refine ⟨h.limit, h.subscriptions, ?_, fun _ => ?_, fun _ => ?_, fun hnil => absurd hnil (by simp)⟩
  · rw [h.sequence, List.length_cons, Nat.add_comm events.length, ← Nat.add_assoc]
    rfl
  · rw [hafter, List.append_cons]
    by_cases hnil : events = []
    · subst hnil
      rw [h.nothing rfl, Published.after, List.mapIdx_nil, List.append_nil]
      rfl
    · rw [h.history hnil]
      exact drop_append_of_end ..
  · have hlistening : ((b.publish event).subscribers.filter Subscriber.listens) =
        (b.publish event).subscribers := by
      refine List.filter_eq_self.mpr fun x hx => ?_
      obtain ⟨y, hy, rfl⟩ := List.mem_map.mp hx
      exact (List.mem_filter.mp hy).2
    by_cases hnil : events = []
    · subst hnil
      rw [h.nothing rfl, hafter, Published.after, List.mapIdx_nil]
      rfl
    · rw [h.subscribers hnil, hlistening, hafter, publish, List.map_map]
      refine List.map_congr_left fun x _ => ?_
      simp

/-- **Events that are published one after the other** are gained by the bus. -/
theorem gains_foldl (events : List Event) : ∀ b : EventBus, b.Gains events (events.foldl publish b) := by
  induction events with
  | nil =>
    exact fun b => ⟨rfl, rfl, rfl, fun hne => absurd rfl hne, fun hne => absurd rfl hne, fun _ => rfl⟩
  | cons event events ih => exact fun b => (ih (b.publish event)).cons

end EventBus

/-! ### The entry of a subscription -/

namespace EventBus

variable {b : EventBus} {id other : Nat}

/-- The entries of a subscription on a bus. -/
def entries (b : EventBus) (id : Nat) : List Subscriber :=
  b.subscribers.filter fun x => x.id = id

theorem receive_fst (b : EventBus) (id : Nat) :
    (b.receive id).1 = (b.entries id).flatMap Subscriber.pending := rfl

theorem entries_subscribe (b : EventBus) (id : Nat) : b.subscribe.2.entries id =
    b.entries id ++ if b.subscriptions = id then [{ id := b.subscriptions }] else [] := by
  rw [entries, subscribe, List.filter_append, List.filter_singleton, entries]
  simp [Bool.cond_decide]

/-- A change of the subscribers that leaves their numbers alone changes the entries of each. -/
theorem entries_map (f : Subscriber → Subscriber) (hf : ∀ x, (f x).id = x.id) (xs : List Subscriber) :
    ((xs.map f).filter fun x => x.id = id) = (xs.filter fun x => x.id = id).map f := by
  rw [List.filter_map]
  congr 2
  funext x
  simp [hf]

theorem entries_publish (b : EventBus) (event : Event) (id : Nat) :
    (b.publish event).entries id = ((b.entries id).filter Subscriber.listens).map fun x =>
      { x with pending := x.pending ++ [⟨b.sequence + 1, event⟩] } := by
  refine (entries_map (fun x => { x with pending := x.pending ++ [⟨b.sequence + 1, event⟩] })
    (fun _ => rfl) _).trans ?_
  rw [List.filter_comm]
  rfl

/-- A change of one subscriber changes its own entries only. -/
theorem entries_change (f : Subscriber → Subscriber) (hf : ∀ x, (f x).id = x.id) (b : EventBus)
    (id other : Nat) :
    ((b.subscribers.map fun x => if x.id = other then f x else x).filter fun x => x.id = id) =
      if id = other then (b.entries id).map f else b.entries id := by
  have hkept : ∀ x : Subscriber, (if x.id = other then f x else x).id = x.id := fun x => by
    split_ifs
    · exact hf x
    · rfl
  have hown : ∀ x ∈ b.entries id, (if x.id = other then f x else x) = if id = other then f x else x :=
    fun x hx => by
      have hid : x.id = id := by simpa using List.of_mem_filter hx
      rw [hid]
  rw [entries_map _ hkept, ← entries, List.map_congr_left hown]
  split_ifs
  · rfl
  · exact List.map_id _

theorem entries_leave (h : id ≠ other) : (b.leave other).entries id = b.entries id :=
  (entries_change (fun x => { x with listens := false }) (fun _ => rfl) b id other).trans (if_neg h)

theorem entries_receive (b : EventBus) (id other : Nat) : (b.receive other).2.entries id =
    if id = other then (b.entries id).map fun x => { x with pending := [] } else b.entries id :=
  entries_change (fun x => { x with pending := [] }) (fun _ => rfl) b id other

end EventBus

/-! ### A bus in use -/

/-- A bus, and what became of the events so far. -/
structure Delivery where
  /-- The bus. -/
  bus : EventBus
  /-- All that was published, under the numbers that the bus gave. -/
  published : List Published := []
  /-- What each subscriber has taken, by the number of the subscription. -/
  taken : Nat → List Published := fun _ => []
  /-- The number after which each poller asks for events. -/
  cursor : Nat → Nat
  /-- What each poller got. -/
  polled : Nat → List Published := fun _ => []

/-- What is done with a bus. -/
inductive Delivery.Move where
  /-- An event is published. -/
  | publish (event : Event)
  /-- Somebody subscribes. -/
  | subscribe
  /-- A subscriber takes what has arrived. -/
  | take (id : Nat)
  /-- A subscriber stops listening. -/
  | leave (id : Nat)
  /-- A poller asks for so many events after the last one it got. -/
  | poll (who limit : Nat)
deriving DecidableEq

namespace Delivery

/-- The event that a move publishes. -/
def Move.event? : Move → Option Event
  | publish event => some event
  | _ => none

/-- Whether a move is that of a poller. -/
def Move.isPoll (who : Nat) : Move → Bool
  | poll w _ => w = who
  | _ => false

/-- What becomes of a bus by a move. -/
def step (s : Delivery) : Move → Delivery
  | .publish event =>
    let bus := s.bus.publish event
    { s with bus, published := s.published ++ [⟨bus.sequence, event⟩] }
  | .subscribe => { s with bus := s.bus.subscribe.2 }
  | .take id =>
    let (events, bus) := s.bus.receive id
    { s with bus, taken := Function.update s.taken id (s.taken id ++ events) }
  | .leave id => { s with bus := s.bus.leave id }
  | .poll who limit =>
    let events := s.bus.poll (s.cursor who) limit
    { s with
      cursor := Function.update s.cursor who
        ((events.getLast?.map Published.sequence).getD (s.cursor who))
      polled := Function.update s.polled who (s.polled who ++ events) }

/-- What becomes of a bus by moves. -/
def play (s : Delivery) (moves : List Move) : Delivery :=
  moves.foldl step s

/-- A new bus that keeps so many events, with the cursors of those who will poll. -/
def start (limit : Nat) (cursor : Nat → Nat) : Delivery :=
  { bus := { maxHistory := limit }, cursor }

/-- No event after the cursor of a poller has left the history. -/
def Complete (s : Delivery) (who : Nat) : Prop :=
  ∀ p ∈ s.published, s.cursor who < p.sequence → p ∈ s.bus.history

instance (s : Delivery) (who : Nat) : Decidable (s.Complete who) :=
  inferInstanceAs (Decidable (∀ p ∈ s.published, s.cursor who < p.sequence → p ∈ s.bus.history))

/-- Whenever a poller polls, no event after its cursor has left the history. -/
def Follows (who : Nat) : Delivery → List Move → Prop
  | _, [] => True
  | s, move :: moves => (move.isPoll who → s.Complete who) ∧ Follows who (s.step move) moves

instance Follows.decidable (who : Nat) :
    (s : Delivery) → (moves : List Move) → Decidable (Follows who s moves)
  | _, [] => isTrue trivial
  | s, move :: moves =>
    have := Follows.decidable who (s.step move) moves
    inferInstanceAs (Decidable (_ ∧ _))

variable {s : Delivery} {move : Move} {moves : List Move} {m who id n c : Nat}

theorem play_append (s : Delivery) (before after : List Move) :
    s.play (before ++ after) = (s.play before).play after :=
  List.foldl_append

/-! ### Numbers and history -/

/-- What holds at every moment: the events are numbered, the history is the end of them, and the
numbers of subscriptions are used once. -/
structure Steady (m : Nat) (s : Delivery) : Prop where
  limit : s.bus.maxHistory = m
  numbered : Published.Numbered s.published
  sequence : s.bus.sequence = s.published.length
  history : s.bus.history = s.published.drop (s.published.length - m)
  known : ∀ x ∈ s.bus.subscribers, x.id < s.bus.subscriptions
  untaken : ∀ id, s.bus.subscriptions ≤ id → s.taken id = []

theorem steady_start (m : Nat) (cursor : Nat → Nat) : Steady m (start m cursor) where
  limit := rfl
  numbered := rfl
  sequence := rfl
  history := (List.drop_nil).symm
  known := by simp [start]
  untaken _ _ := rfl

/-- There is no entry for a subscription that was not made. -/
theorem Steady.entries_unknown (h : Steady m s) (hid : s.bus.subscriptions ≤ id) :
    s.bus.entries id = [] :=
  List.filter_eq_nil_iff.mpr fun x hx => by
    have := h.known x hx
    simp; omega

theorem Steady.step (h : Steady m s) (move : Move) : Steady m (s.step move) := by
  cases move with
  | publish event =>
    exact {
      limit := h.limit
      numbered := h.numbered.concat (congrArg (· + 1) h.sequence)
      sequence := by simp [Delivery.step, EventBus.publish, h.sequence]
      history := by
        simp only [Delivery.step, EventBus.publish, h.limit, h.history]
        exact drop_append_of_end ..
      known := fun x hx => by
        obtain ⟨y, hy, rfl⟩ := List.mem_map.mp hx
        exact h.known y (List.mem_of_mem_filter hy)
      untaken := h.untaken }
  | subscribe =>
    exact { h with
      known := fun x hx => by
        rcases List.mem_append.mp hx with hx | hx
        · exact Nat.lt_succ_of_lt (h.known x hx)
        · rw [List.mem_singleton.mp hx]
          exact Nat.lt_succ_self _
      untaken := fun id hid => h.untaken id (Nat.le_of_succ_le hid) }
  | take id =>
    exact { h with
      known := fun x hx => by
        obtain ⟨y, hy, rfl⟩ := List.mem_map.mp hx
        split_ifs <;> exact h.known y hy
      untaken := fun id' hid => by
        by_cases he : id' = id
        · subst he
          simp [Delivery.step, h.untaken id' hid, EventBus.receive_fst, h.entries_unknown hid]
        · simp [Delivery.step, Function.update_of_ne he, h.untaken id' hid] }
  | leave id =>
    exact { h with
      known := fun x hx => by
        obtain ⟨y, hy, rfl⟩ := List.mem_map.mp hx
        split_ifs <;> exact h.known y hy }
  | poll who limit => exact { h with }

theorem Steady.play (h : Steady m s) (moves : List Move) : Steady m (s.play moves) := by
  induction moves generalizing s with
  | nil => exact h
  | cons move moves ih => exact ih (h.step move)

/-- What was published is what the moves published. -/
theorem events_play (s : Delivery) (moves : List Move) : (s.play moves).published.map Published.event =
    s.published.map Published.event ++ moves.filterMap Move.event? := by
  induction moves generalizing s with
  | nil => simp [play]
  | cons move moves ih =>
    rw [play, List.foldl_cons, ← play, ih]
    cases move <;> simp [step, Move.event?, List.filterMap_cons]

/-! ### Subscribers -/

/-- A subscriber listens and has been handed what was published after the first `n` events. -/
structure Listening (id n : Nat) (s : Delivery) : Prop where
  known : id < s.bus.subscriptions
  past : n ≤ s.published.length
  handed : ∃ pending, s.bus.entries id = [⟨id, true, pending⟩] ∧
    s.taken id ++ pending = s.published.drop n

theorem Steady.listening (h : Steady m s) :
    Listening s.bus.subscribe.1 s.published.length (s.step .subscribe) where
  known := Nat.lt_succ_self _
  past := Nat.le_refl _
  handed := by
    have hnone := h.entries_unknown (Nat.le_refl _)
    refine ⟨[], ?_, ?_⟩
    · refine (EventBus.entries_subscribe s.bus _).trans ?_
      rw [show s.bus.subscribe.1 = s.bus.subscriptions from rfl, hnone, if_pos rfl, List.nil_append]
    · simp [Delivery.step, EventBus.subscribe, h.untaken _ (Nat.le_refl _)]

theorem Listening.step (h : Listening id n s) (hstays : move ≠ .leave id) :
    Listening id n (s.step move) := by
  obtain ⟨hknown, hpast, pending, hentry, hhanded⟩ := h
  cases move with
  | publish event =>
    refine ⟨hknown, ?_, pending ++ [⟨s.bus.sequence + 1, event⟩], ?_, ?_⟩
    · simp [Delivery.step]; omega
    · simp [Delivery.step, EventBus.entries_publish, hentry]
    · simp [Delivery.step, EventBus.publish, List.drop_append_of_le_length hpast, ← hhanded]
  | subscribe =>
    have hother : s.bus.subscriptions ≠ id := Nat.ne_of_gt hknown
    refine ⟨Nat.lt_succ_of_lt hknown, hpast, pending, ?_, hhanded⟩
    simp [Delivery.step, EventBus.entries_subscribe, hother, hentry]
  | take other =>
    by_cases he : id = other
    · subst he
      refine ⟨hknown, hpast, [], ?_, ?_⟩
      · simp [Delivery.step, EventBus.entries_receive, hentry]
      · simp [Delivery.step, EventBus.receive_fst, hentry, hhanded]
    · refine ⟨hknown, hpast, pending, ?_, ?_⟩
      · simp [Delivery.step, EventBus.entries_receive, he, hentry]
      · simp [Delivery.step, Function.update_of_ne he, hhanded]
  | leave other =>
    have hne : id ≠ other := fun he => hstays (he ▸ rfl)
    exact ⟨hknown, hpast, pending, (EventBus.entries_leave hne).trans hentry, hhanded⟩
  | poll who limit => exact ⟨hknown, hpast, pending, hentry, hhanded⟩

theorem Listening.play (h : Listening id n s) (hstays : .leave id ∉ moves) :
    Listening id n (s.play moves) := by
  induction moves generalizing s with
  | nil => exact h
  | cons move moves ih =>
    obtain ⟨hne, hrest⟩ := List.ne_and_not_mem_of_not_mem_cons hstays
    exact ih (h.step (Ne.symm hne)) hrest

/-- What a subscriber has taken and what waits for it is all that was published since. -/
theorem Listening.taken (h : Listening id n s) :
    s.taken id ++ (s.bus.receive id).1 = s.published.drop n := by
  obtain ⟨pending, hentry, hhanded⟩ := h.handed
  simp [EventBus.receive_fst, hentry, hhanded]

/-! ### Pollers -/

/-- A poller whose cursor was `c` at first has got the events from there to its cursor. -/
structure Reads (who c : Nat) (s : Delivery) : Prop where
  from_start : c ≤ s.cursor who
  got : s.polled who = (s.published.take (s.cursor who)).drop c
  behind : s.cursor who = c ∨ s.cursor who ≤ s.published.length

/-- If none of them has left the history, the events after the cursor are read off it. -/
theorem Steady.poll (h : Steady m s) (hcomplete : s.Complete who) (limit : Nat) :
    s.bus.poll (s.cursor who) limit = (s.published.drop (s.cursor who)).take limit := by
  have hsplit := List.take_append_drop (s.published.length - m) s.published
  have hlost : ((s.published.take (s.published.length - m)).filter
      fun p => s.cursor who < p.sequence) = [] := by
    refine List.filter_eq_nil_iff.mpr fun p hp hlt => ?_
    have hkept := hcomplete p (List.mem_of_mem_take hp) (by simpa using hlt)
    rw [h.history] at hkept
    exact List.disjoint_take_drop h.numbered.nodup (Nat.le_refl _) hp hkept
  have hall := h.numbered.filter_above (c := s.cursor who)
  rw [← hsplit, List.filter_append, hlost, List.nil_append, hsplit] at hall
  rw [EventBus.poll, h.history, hall]

/-- A poll moves the cursor over the events that it gets. -/
theorem Steady.step_poll (h : Steady m s) (hcomplete : s.Complete who) (limit : Nat) :
    (s.step (.poll who limit)).cursor who =
        s.cursor who + ((s.published.drop (s.cursor who)).take limit).length ∧
      (s.step (.poll who limit)).polled who =
        s.polled who ++ (s.published.drop (s.cursor who)).take limit := by
  simp [Delivery.step, h.poll hcomplete, h.numbered.last]

/-- A poller reads on from where it stands. -/
theorem Reads.poll (hreads : Reads who c s) (h : Steady m s) (hcomplete : s.Complete who) (limit : Nat) :
    Reads who c (s.step (.poll who limit)) := by
  obtain ⟨hstart, hgot, hbehind⟩ := hreads
  obtain ⟨hcursor, hpolled⟩ := h.step_poll hcomplete limit
  by_cases hle : s.cursor who ≤ s.published.length
  · refine ⟨by omega, ?_, .inr ?_⟩
    · have hread : (s.published.drop (s.cursor who)).take
          ((s.published.drop (s.cursor who)).take limit).length =
            (s.published.drop (s.cursor who)).take limit := by
        rw [List.take_eq_take_iff, List.length_take, Nat.min_assoc, Nat.min_self]
      have hwithin : c ≤ (s.published.take (s.cursor who)).length := by
        rw [List.length_take]
        omega
      rw [hpolled, hcursor, hgot]
      change _ = (s.published.take _).drop c
      rw [List.take_add, hread, List.drop_append_of_le_length hwithin]
    · rw [hcursor, List.length_take, List.length_drop]
      change _ ≤ s.published.length
      omega
  · -- nothing was published yet from the first cursor on
    have hnone : s.published.drop (s.cursor who) = [] := List.drop_eq_nil_of_le (by omega)
    simp only [hnone, List.take_nil, List.length_nil, Nat.add_zero, List.append_nil] at hcursor hpolled
    exact ⟨hcursor ▸ hstart, by rw [hpolled, hcursor]; exact hgot, hcursor ▸ hbehind⟩

theorem Reads.step (hreads : Reads who c s) (h : Steady m s)
    (hcomplete : move.isPoll who → s.Complete who) : Reads who c (s.step move) := by
  obtain ⟨hstart, hgot, hbehind⟩ := id hreads
  cases move with
  | publish event =>
    rcases hbehind with heq | hle
    · refine ⟨hstart, hgot.trans ?_, .inl heq⟩
      have hnone (l : List Published) : (l.take (s.cursor who)).drop c = [] :=
        List.drop_eq_nil_of_le (by rw [heq, List.length_take]; exact Nat.min_le_left ..)
      exact (hnone _).trans (hnone _).symm
    · refine ⟨hstart, hgot.trans ?_, .inr (Nat.le_trans hle (by simp [Delivery.step]))⟩
      simp [Delivery.step, List.take_append_of_le_length hle]
  | subscribe => exact ⟨hstart, hgot, hbehind⟩
  | take id => exact ⟨hstart, hgot, hbehind⟩
  | leave id => exact ⟨hstart, hgot, hbehind⟩
  | poll other limit =>
    by_cases he : who = other
    · subst he
      exact hreads.poll h (hcomplete (by simp [Move.isPoll])) limit
    · have hcursor : (s.step (.poll other limit)).cursor who = s.cursor who := Function.update_of_ne he ..
      have hpolled : (s.step (.poll other limit)).polled who = s.polled who := Function.update_of_ne he ..
      exact ⟨hcursor ▸ hstart, by rw [hpolled, hcursor]; exact hgot, hcursor ▸ hbehind⟩

theorem Reads.play (hreads : Reads who c s) (h : Steady m s) (hfollows : Follows who s moves) :
    Reads who c (s.play moves) := by
  induction moves generalizing s with
  | nil => exact hreads
  | cons move moves ih => exact ih (hreads.step h hfollows.1) (h.step move) hfollows.2

/-- What a poller got, by the numbers of the events. -/
theorem Reads.polled (hreads : Reads who c s) (h : Steady m s) : s.polled who =
    s.published.filter fun p => c < p.sequence ∧ p.sequence ≤ s.cursor who := by
  rw [hreads.got, ← (h.numbered.take _).filter_above, ← h.numbered.filter_upto, List.filter_filter]
  simp

/-- A poller that has come to the end has got all events. -/
theorem Reads.polled_all (hreads : Reads who c s) (h : Steady m s)
    (hend : s.published.length ≤ s.cursor who) :
    s.polled who = s.published.filter fun p => c < p.sequence := by
  rw [hreads.got, List.take_of_length_le hend, h.numbered.filter_above]

/-- With as many polls as there are events after its cursor a poller comes to the end. -/
theorem Steady.catches_up (h : Steady m s) (hcomplete : s.Complete who) {limits : List Nat}
    (hlimits : ∀ k ∈ limits, 1 ≤ k) (hmany : s.published.length - s.cursor who ≤ limits.length) :
    Follows who s (limits.map (.poll who)) ∧
      (s.play (limits.map (.poll who))).published = s.published ∧
      s.published.length ≤ (s.play (limits.map (.poll who))).cursor who := by
  induction limits generalizing s with
  | nil =>
    rw [List.length_nil] at hmany
    exact ⟨trivial, rfl, show s.published.length ≤ s.cursor who by omega⟩
  | cons k limits ih =>
    obtain ⟨hk, hrest⟩ := List.forall_mem_cons.mp hlimits
    obtain ⟨hcursor, -⟩ := h.step_poll hcomplete k
    have hcomplete' : (s.step (.poll who k)).Complete who := fun p hp hlt =>
      hcomplete p hp (by omega)
    have hfewer : (s.step (.poll who k)).published.length - (s.step (.poll who k)).cursor who ≤
        limits.length := by
      rw [hcursor, List.length_take, List.length_drop]
      rw [List.length_cons] at hmany
      change s.published.length - _ ≤ _
      omega
    obtain ⟨hfollows, hsame, hend⟩ := ih (h.step _) hcomplete' hrest hfewer
    exact ⟨⟨fun _ => hcomplete, hfollows⟩, hsame, hend⟩

/-- **Events are delivered without gaps**, however many of them a bus keeps and whatever is done with it.
They are numbered from 1. Whoever subscribed and did not leave has taken, or can take, what was
published since, and the history is the end of all that was published. A poller past whose cursor
nothing was lost when it polled has got each event from its first cursor to where it stands, and as
many polls as there are events left bring it the rest. -/
theorem gapless (limit : Nat) (first : Nat → Nat) (moves : List Move) :
    let s := (start limit first).play moves
    let events := moves.filterMap Move.event?
    (s.published.map Published.event = events ∧
      s.published.map Published.sequence = List.range' 1 events.length ∧
      s.bus.sequence = events.length) ∧
    (∀ before after, moves = before ++ .subscribe :: after →
      let s₀ := (start limit first).play before
      .leave s₀.bus.subscribe.1 ∉ after →
        s.taken s₀.bus.subscribe.1 ++ (s.bus.receive s₀.bus.subscribe.1).1 =
          s.published.drop s₀.published.length) ∧
    (s.bus.history <:+ s.published ∧ s.bus.history.length = min events.length limit) ∧
    ∀ who, Follows who (start limit first) moves →
      (s.polled who = s.published.filter fun p => first who < p.sequence ∧ p.sequence ≤ s.cursor who) ∧
      (s.Complete who → ∀ limits : List Nat, (∀ k ∈ limits, 1 ≤ k) →
        s.published.length - s.cursor who ≤ limits.length →
          (s.play (limits.map (.poll who))).polled who =
            s.published.filter fun p => first who < p.sequence) := by
  intro s events
  have hsteady : Steady limit s := (steady_start limit first).play moves
  have hevents : s.published.map Published.event = events := events_play _ moves
  have hlength : s.published.length = events.length := by rw [← hevents, List.length_map]
  refine ⟨⟨hevents, hlength ▸ hsteady.numbered, hlength ▸ hsteady.sequence⟩, ?subscribers, ?history,
    ?pollers⟩
  case subscribers =>
    rintro before after hmoves s₀ hstays
    have hplay : s = (s₀.step .subscribe).play after := by
      simp only [s, hmoves, play_append]
      rfl
    exact hplay ▸ ((((steady_start limit first).play before).listening.play hstays).taken)
  case history =>
    rw [hsteady.history]
    refine ⟨List.drop_suffix .., ?_⟩
    rw [List.length_drop, hlength]
    omega
  case pollers =>
    intro who hfollows
    have hreads : Reads who (first who) s :=
      Reads.play ⟨Nat.le_refl _, by simp [start], .inl rfl⟩ (steady_start limit first) hfollows
    refine ⟨hreads.polled hsteady, fun hcomplete limits hlimits hmany => ?_⟩
    obtain ⟨hrest, hsame, hend⟩ := hsteady.catches_up hcomplete hlimits hmany
    rw [← hsame] at hend ⊢
    exact (hreads.play hsteady hrest).polled_all (hsteady.play _) hend

/-- On a bus that keeps two events one subscriber comes early and leaves, another comes late and stays,
and a poller that started from nothing reads them all though none of the first two is kept. -/
theorem gapless_of_mixed :
    let event := Event.rebuildRequested none
    let moves : List Move := [.publish (event true), .subscribe, .publish (event false), .poll 7 1,
      .take 0, .subscribe, .publish (event true), .poll 7 1, .leave 0, .publish (event false), .take 1]
    let s := (start 2 fun _ => 0).play moves
    s.bus.history.map Published.sequence = [3, 4] ∧
    s.taken 1 ++ (s.bus.receive 1).1 = s.published.drop 2 ∧
    (s.polled 7 = s.published.filter fun p => 0 < p.sequence ∧ p.sequence ≤ s.cursor 7) ∧
    (s.play [.poll 7 1, .poll 7 1]).polled 7 = s.published.filter fun p => 0 < p.sequence := by
  intro event moves s
  obtain ⟨-, htaken, -, hpolled⟩ := gapless 2 (fun _ => 0) moves
  obtain ⟨hread, hrest⟩ := hpolled 7 (by decide)
  exact ⟨by decide, htaken (moves.take 5) (moves.drop 6) rfl (by decide), hread,
    hrest (by decide) [1, 1] (by decide) (by decide)⟩

end Delivery
end Codebook
