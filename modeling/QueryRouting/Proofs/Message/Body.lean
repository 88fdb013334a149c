import QueryRouting.Message.Request

namespace QueryRouting

def BodyEvent.bytes : BodyEvent → Bytes
  | .chunk bytes => bytes
  | .failure _ => []

namespace Body

variable {limit : Nat} {events : List BodyEvent} {bytes : Bytes}

/-- A stream that yields nothing but chunks. -/
def Unbroken (events : List BodyEvent) : Prop :=
  ∀ event ∈ events, ∃ chunk, event = .chunk chunk

theorem unbroken_cons {event : BodyEvent} :
    Unbroken (event :: events) ↔ (∃ chunk, event = .chunk chunk) ∧ Unbroken events :=
  List.forall_mem_cons

theorem readOnto_eq_ok_iff {buffered : Bytes} (hb : buffered.length ≤ limit) :
    readOnto limit buffered events = .ok bytes ↔ Unbroken events ∧
      bytes = buffered ++ events.flatMap BodyEvent.bytes ∧ bytes.length ≤ limit := by
  induction events generalizing buffered with
  | nil =>
    rw [readOnto, Except.ok.injEq, List.flatMap_nil, List.append_nil]
    constructor
    · rintro rfl
      exact ⟨nofun, rfl, hb⟩
    · intro h
      exact h.2.1.symm
  | cons event events ih =>
    rw [unbroken_cons, List.flatMap_cons, ← List.append_assoc]
    cases event with
    | failure text =>
      constructor
      · intro h
        cases h
      · intro h
        obtain ⟨⟨⟨chunk, hc⟩, -⟩, -⟩ := h
        cases hc
    | chunk chunk =>
      rw [readOnto]
      split
      · rename_i hl
        constructor
        · intro h
          cases h
        · intro h
          obtain ⟨-, rfl, hfit⟩ := h
          rw [List.length_append, List.length_append, BodyEvent.bytes] at hfit
          omega
      · rename_i hl
        have hb' : (buffered ++ chunk).length ≤ limit := by
          rw [List.length_append]
          omega
        rw [ih hb', BodyEvent.bytes]
        constructor
        · intro h
          exact ⟨⟨⟨chunk, rfl⟩, h.1⟩, h.2⟩
        · intro h
          exact ⟨h.1.2, h.2⟩

theorem read_eq_ok_iff : read limit events = .ok bytes ↔ Unbroken events ∧
    bytes = events.flatMap BodyEvent.bytes ∧ bytes.length ≤ limit :=
  readOnto_eq_ok_iff (Nat.zero_le limit)

theorem eq_of_read (h : read limit events = .ok bytes) :
    bytes = events.flatMap BodyEvent.bytes :=
  (read_eq_ok_iff.1 h).2.1

theorem parse_isOk_iff {headers : Headers} : (∃ v, parse headers bytes = .ok v) ↔
    (bytes ≠ [] → format headers = .json →
      ∃ s v, Bytes.toString? bytes = some s ∧ Json.parse? s.toList = some v) := by
  unfold parse
  cases bytes with
  | nil => exact iff_of_true ⟨.null, rfl⟩ fun h => absurd rfl h
  | cons byte bytes =>
    rw [List.isEmpty_cons, if_neg Bool.false_ne_true]
    cases hf : format headers with
    | form | text => exact iff_of_true ⟨_, rfl⟩ nofun
    | json =>
      simp only [ne_eq, reduceCtorEq, not_false_eq_true, forall_const]
      cases hs : Bytes.toString? (byte :: bytes) with
      | none => simp
      | some s => cases hv : Json.parse? s.toList <;> simp [hv]

/-- The bytes that arrive until the stream breaks off or ends. -/
def arriving : List BodyEvent → Bytes
  | [] => []
  | .failure _ :: _ => []
  | .chunk chunk :: rest => chunk ++ arriving rest

/-- How many bytes have arrived with the chunk that passes a limit. -/
def passing? (limit arrived : Nat) : List BodyEvent → Option Nat
  | [] => none
  | .failure _ :: _ => none
  | .chunk chunk :: rest =>
    if limit < arrived + chunk.length then some (arrived + chunk.length)
    else passing? limit (arrived + chunk.length) rest

variable {arrived : Nat}

theorem passing?_eq_none_iff (h : arrived ≤ limit) :
    passing? limit arrived events = none ↔ arrived + (arriving events).length ≤ limit := by
  induction events generalizing arrived with
  | nil => exact iff_of_true rfl h
  | cons event rest ih =>
    cases event with
    | failure text => exact iff_of_true rfl h
    | chunk chunk =>
      rw [passing?, arriving, List.length_append, ← Nat.add_assoc]
      split
      · rename_i hl
        exact iff_of_false nofun (by omega)
      · rename_i hl
        exact ih (Nat.not_lt.1 hl)

theorem readOnto_ne_tooLarge {buffered : Bytes} {n : Nat}
    (h : buffered.length + (arriving events).length ≤ limit) :
    readOnto limit buffered events ≠ .error (.tooLarge n) := by
  induction events generalizing buffered with
  | nil => exact nofun
  | cons event rest ih =>
    cases event with
    | failure text => exact nofun
    | chunk chunk =>
      rw [arriving, List.length_append, ← Nat.add_assoc] at h
      rw [readOnto, if_neg (by omega)]
      apply ih
      rw [List.length_append]
      exact h

theorem read_ne_tooLarge {n : Nat} (h : (arriving events).length ≤ limit) :
    read limit events ≠ .error (.tooLarge n) := by
  apply readOnto_ne_tooLarge
  rw [List.length_nil, Nat.zero_add]
  exact h

end Body

end QueryRouting
