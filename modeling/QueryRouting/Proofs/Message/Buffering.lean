import QueryRouting.Proofs.Message.Body

namespace QueryRouting.Body

variable {limit : Nat} {events rest : List BodyEvent} {event : BodyEvent} {buffered more : Bytes}
  {e : BodyError}

/-- Takes one event: a chunk that fits goes to the end of the buffer. -/
def take (limit : Nat) (buffered : Bytes) : BodyEvent → Except BodyError Bytes
  | .chunk chunk =>
    if limit < buffered.length + chunk.length then .error (.tooLarge limit)
    else .ok (buffered ++ chunk)
  | .failure text => .error (.broken text)

/-- Why an event cannot be taken when so many bytes have arrived before it. -/
inductive Stops (limit arrived : Nat) : BodyEvent → BodyError → Prop
  | broken {text : String} : Stops limit arrived (.failure text) (.broken text)
  | passed {chunk : Bytes} (h : limit < arrived + chunk.length) :
      Stops limit arrived (.chunk chunk) (.tooLarge limit)

theorem readOnto_cons : readOnto limit buffered (event :: rest) =
    take limit buffered event >>= fun more => readOnto limit more rest := by
  cases event with
  | failure text => rfl
  | chunk chunk =>
    rw [readOnto, take]
    split <;> rfl

theorem take_eq_ok_iff : take limit buffered event = .ok more ↔
    ∃ chunk, event = .chunk chunk ∧ more = buffered ++ chunk ∧ more.length ≤ limit := by
  cases event with
  | failure text => simp [take]
  | chunk chunk =>
    rw [take]
    split
    · rename_i hl
      constructor
      · intro h
        cases h
      · rintro ⟨_, he, rfl, hfit⟩
        obtain rfl := BodyEvent.chunk.inj he
        rw [List.length_append] at hfit
        omega
    · rename_i hl
      constructor
      · intro h
        obtain rfl := Except.ok.inj h
        refine ⟨chunk, rfl, rfl, ?_⟩
        rw [List.length_append]
        exact Nat.not_lt.1 hl
      · rintro ⟨_, he, rfl, -⟩
        obtain rfl := BodyEvent.chunk.inj he
        rfl

theorem take_eq_error_iff :
    take limit buffered event = .error e ↔ Stops limit buffered.length event e := by
  constructor
  · intro h
    cases event with
    | failure text =>
      obtain rfl := Except.error.inj h
      exact .broken
    | chunk chunk =>
      rw [take] at h
      split at h
      · rename_i hl
        obtain rfl := Except.error.inj h
        exact .passed hl
      · cases h
  · intro h
    cases h with
    | broken => rfl
    | passed hl => rw [take, if_pos hl]

/-- What the loop holds in its buffer, and the events that are still to come. -/
inductive Buffers (limit : Nat) (events : List BodyEvent) : Bytes → List BodyEvent → Prop
  | start : Buffers limit events [] events
  | next {event : BodyEvent} {buffered more : Bytes} {rest : List BodyEvent}
      (h : Buffers limit events buffered (event :: rest))
      (ht : take limit buffered event = .ok more) : Buffers limit events more rest

namespace Buffers

theorem read (h : Buffers limit events buffered rest) :
    read limit events = readOnto limit buffered rest := by
  induction h with
  | start => rfl
  | next h ht ih =>
    rw [ih, readOnto_cons, ht]
    rfl

/-- The buffer holds the chunks taken so far, and they fit the limit. -/
theorem taken (h : Buffers limit events buffered rest) :
    ∃ taken, events = taken ++ rest ∧ Unbroken taken ∧ buffered = taken.flatMap BodyEvent.bytes ∧
      buffered.length ≤ limit := by
  induction h with
  | start => exact ⟨[], rfl, nofun, rfl, Nat.zero_le limit⟩
  | next h ht ih =>
    obtain ⟨taken, hs, hu, rfl, -⟩ := ih
    obtain ⟨chunk, rfl, rfl, hfit⟩ := take_eq_ok_iff.1 ht
    refine ⟨taken ++ [.chunk chunk], ?_, ?_, ?_, hfit⟩
    · rw [hs, List.append_assoc]
      rfl
    · exact List.forall_mem_append.2 ⟨hu, List.forall_mem_singleton.2 ⟨chunk, rfl⟩⟩
    · rw [List.flatMap_append, List.flatMap_singleton]
      rfl

theorem of_fits {taken : List BodyEvent} (h : Buffers limit events buffered (taken ++ rest))
    (hu : Unbroken taken)
    (hfit : (buffered ++ taken.flatMap BodyEvent.bytes).length ≤ limit) :
    Buffers limit events (buffered ++ taken.flatMap BodyEvent.bytes) rest := by
  induction taken generalizing buffered with
  | nil =>
    rw [List.flatMap_nil, List.append_nil]
    exact h
  | cons event taken ih =>
    obtain ⟨⟨chunk, rfl⟩, hrest⟩ := unbroken_cons.1 hu
    rw [List.flatMap_cons, ← List.append_assoc] at hfit ⊢
    have hchunk : (buffered ++ chunk).length ≤ limit := by
      rw [List.length_append] at hfit
      exact Nat.le_of_add_right_le hfit
    exact ih (h.next (take_eq_ok_iff.2 ⟨chunk, rfl, rfl, hchunk⟩)) hrest hfit

end Buffers

/-- The first event that cannot be taken, all events before it being chunks that fit. -/
def FirstStop (limit : Nat) (events : List BodyEvent) (e : BodyError) : Prop :=
  ∃ taken event rest, events = taken ++ event :: rest ∧ Unbroken taken ∧
    (taken.flatMap BodyEvent.bytes).length ≤ limit ∧
    Stops limit (taken.flatMap BodyEvent.bytes).length event e

theorem Buffers.exists_stop (h : Buffers limit events buffered rest)
    (he : readOnto limit buffered rest = .error e) : FirstStop limit events e := by
  induction rest generalizing buffered with
  | nil => cases he
  | cons event rest ih =>
    rw [readOnto_cons] at he
    cases ht : take limit buffered event with
    | ok more =>
      rw [ht] at he
      exact ih (h.next ht) he
    | error e' =>
      rw [ht] at he
      obtain rfl := Except.error.inj he
      obtain ⟨taken, hs, hu, rfl, hfit⟩ := h.taken
      exact ⟨taken, event, rest, hs, hu, hfit, take_eq_error_iff.1 ht⟩

theorem read_eq_error_iff : read limit events = .error e ↔ FirstStop limit events e := by
  constructor
  · intro he
    exact Buffers.start.exists_stop he
  · rintro ⟨taken, event, rest, rfl, hu, hfit, hstop⟩
    have hb : Buffers limit (taken ++ event :: rest) (taken.flatMap BodyEvent.bytes)
        (event :: rest) := Buffers.start.of_fits hu hfit
    rw [hb.read, readOnto_cons, take_eq_error_iff.2 hstop]
    rfl

theorem read_of_unbroken (hu : Unbroken events) : read limit events =
    if limit < (events.flatMap BodyEvent.bytes).length then .error (.tooLarge limit)
    else .ok (events.flatMap BodyEvent.bytes) := by
  split
  · rename_i hl
    cases hr : read limit events with
    | ok bytes =>
      obtain ⟨-, rfl, hfit⟩ := read_eq_ok_iff.1 hr
      omega
    | error e =>
      obtain ⟨taken, event, rest, rfl, -, -, hstop⟩ := read_eq_error_iff.1 hr
      cases hstop with
      | broken =>
        obtain ⟨chunk, hc⟩ := hu _ (List.mem_append_right _ List.mem_cons_self)
        cases hc
      | passed => rfl
  · rename_i hl
    exact read_eq_ok_iff.2 ⟨hu, rfl, Nat.not_lt.1 hl⟩

/--
A body is buffered as the bytes of all its chunks unless an event stops it, and the first such event
decides the error. Streams that do not fail and carry the same bytes have the same outcome, and the
buffer never holds more than the limit.
-/
theorem read_of_chunks (limit : Nat) (events : List BodyEvent) :
    (∀ bytes, read limit events = .ok bytes ↔ Unbroken events ∧
      bytes = events.flatMap BodyEvent.bytes ∧ bytes.length ≤ limit) ∧
    (∀ e, read limit events = .error e ↔ FirstStop limit events e) ∧
    (∀ others, Unbroken events → Unbroken others →
      events.flatMap BodyEvent.bytes = others.flatMap BodyEvent.bytes →
      read limit events = read limit others) ∧
    ∀ buffered rest, Buffers limit events buffered rest →
      read limit events = readOnto limit buffered rest ∧
        (∃ taken, events = taken ++ rest ∧ buffered = taken.flatMap BodyEvent.bytes) ∧
        buffered.length ≤ limit := by
  refine ⟨fun _ => read_eq_ok_iff, fun _ => read_eq_error_iff, ?_, ?_⟩
  · intro others hu ho hbytes
    rw [read_of_unbroken hu, read_of_unbroken ho, hbytes]
  · intro buffered rest h
    obtain ⟨taken, hs, -, hb, hfit⟩ := h.taken
    exact ⟨h.read, ⟨taken, hs, hb⟩, hfit⟩

/-- Four bytes with an empty chunk among them and three bytes of room, or the four in one chunk. -/
theorem read_of_chunks_divided :
    Unbroken [.chunk [1, 2], .chunk [], .chunk [3], .chunk [4]] ∧ Unbroken [.chunk [1, 2, 3, 4]] ∧
      read 3 [.chunk [1, 2], .chunk [], .chunk [3], .chunk [4]] = read 3 [.chunk [1, 2, 3, 4]] ∧
      Buffers 3 [.chunk [1, 2], .chunk [], .chunk [3], .chunk [4]] [1, 2, 3] [.chunk [4]] ∧
      [1, 2, 3].length ≤ 3 := by
  have hdivided : Unbroken [.chunk [1, 2], .chunk [], .chunk [3], .chunk [4]] := by
    simp [Unbroken]
  have hwhole : Unbroken [.chunk [1, 2, 3, 4]] := by simp [Unbroken]
  have hb : Buffers 3 [.chunk [1, 2], .chunk [], .chunk [3], .chunk [4]] [1, 2, 3] [.chunk [4]] :=
    ((Buffers.start.next rfl).next rfl).next rfl
  obtain ⟨-, -, hsame, hroom⟩ :=
    read_of_chunks 3 [.chunk [1, 2], .chunk [], .chunk [3], .chunk [4]]
  exact ⟨hdivided, hwhole, hsame _ hdivided hwhole rfl, hb, (hroom _ _ hb).2.2⟩

end QueryRouting.Body
