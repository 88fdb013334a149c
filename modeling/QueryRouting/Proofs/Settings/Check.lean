import QueryRouting.Proofs.Settings.Bindable
import QueryRouting.Proofs.Text.Numeral

namespace QueryRouting

open Traversal

namespace Config

/-- What is checked: six fields, and in each route its method, its path and its steps. -/
inductive Check
  | bindAddress
  | requestTimeout
  | bodyLimit
  | url
  | maxConnections
  | acquireTimeout
  | method (route : Nat)
  | path (route : Nat)
  | step (route place : Nat)
  deriving DecidableEq, Repr

namespace Check

/-- The name of the field, or the places of the route and the step. -/
def key : Check → String
  | .bindAddress => "server.bind_address"
  | .requestTimeout => "server.request_timeout_secs"
  | .bodyLimit => "server.body_limit_bytes"
  | .url => "database.url"
  | .maxConnections => "database.max_connections"
  | .acquireTimeout => "database.acquire_timeout_secs"
  | .method i => "routes[" ++ toString i ++ "].method"
  | .path i => "routes[" ++ toString i ++ "].path"
  | .step i j => "routes[" ++ toString i ++ "].steps[" ++ toString j ++ "]"

/-- The fields come first, and then route by route the method, the path and step by step. -/
def rank : Check → List Nat
  | .bindAddress => [0]
  | .requestTimeout => [1]
  | .bodyLimit => [2]
  | .url => [3]
  | .maxConnections => [4]
  | .acquireTimeout => [5]
  | .method i => [6, i, 0]
  | .path i => [6, i, 1]
  | .step i j => [6, i, 2, j]

/-- The check comes before the other one, by the first number in which their ranks differ. -/
def Precedes (check other : Check) : Prop :=
  check.rank < other.rank

instance (check other : Check) : Decidable (check.Precedes other) :=
  inferInstanceAs (Decidable (_ < _))

theorem Precedes.irrefl (check : Check) : ¬ check.Precedes check :=
  List.lt_irrefl check.rank

theorem Precedes.asymm {check other : Check} (h : check.Precedes other) :
    ¬ other.Precedes check :=
  List.lt_asymm h

def positive? (n : Nat) : Option String :=
  if 0 < n then none else some "must be > 0"

def refusal? (x : Except BindError α) : Option String :=
  (failure? x).map BindError.message

/-- What is wrong with what the check looks at, if it fails. -/
def fault? (c : Config) : Check → Option String
  | .bindAddress =>
    if (SocketAddress.parse? c.server.bindAddress).isSome then none
    else some ("\x60" ++ c.server.bindAddress ++ "\x60 is not a socket address")
  | .requestTimeout => positive? c.server.requestTimeoutSecs
  | .bodyLimit => positive? c.server.bodyLimitBytes
  | .url =>
    if (DatabaseKind.ofUrl? c.database.url).isSome then none
    else some ("unsupported database url \x60" ++ c.database.url ++ "\x60")
  | .maxConnections => positive? c.database.maxConnections
  | .acquireTimeout => positive? c.database.acquireTimeoutSecs
  | .method i => c.routes[i]?.bind fun route => refusal? (MethodMatcher.parse route.method)
  | .path i => c.routes[i]?.bind fun route => refusal? (checkPath route.path)
  | .step i j => c.routes[i]?.bind fun route =>
    route.steps[j]?.bind fun v => refusal? (Argument.classify v)

/-- The error that a failing check reports. -/
def error (fault : Check × String) : ValidationError :=
  ⟨fault.1.key, fault.2⟩

def fields : List Check :=
  [.bindAddress, .requestTimeout, .bodyLimit, .url, .maxConnections, .acquireTimeout]

/-- A check of something in a route, and how its key goes on behind that of the route. -/
inductive Within (i : Nat) : Check → String → Prop
  | method : Within i (.method i) ".method"
  | path : Within i (.path i) ".path"
  | step (j : Nat) : Within i (.step i j) (".steps[" ++ toString j ++ "]")

theorem mem_fields_or_within (check : Check) :
    check ∈ fields ∨ ∃ i rest, Within i check rest := by
  cases check with
  | bindAddress | requestTimeout | bodyLimit | url | maxConnections | acquireTimeout =>
    exact .inl (by decide)
  | method i => exact .inr ⟨i, _, .method⟩
  | path i => exact .inr ⟨i, _, .path⟩
  | step i j => exact .inr ⟨i, _, .step j⟩

theorem index_append_inj {i j : Nat} {r s : String}
    (h : toString i ++ "]" ++ r = toString j ++ "]" ++ s) : i = j ∧ r = s := by
  have hdigits (n : Nat) : (toString n).toList = Text.decimal n := Nat.toList_repr
  have hclosed (n : Nat) (rest : List Char) :
      (Text.decimal n ++ ']' :: rest).takeWhile (· != ']') = Text.decimal n ∧
        (Text.decimal n ++ ']' :: rest).dropWhile (· != ']') = ']' :: rest := by
    refine Text.takeWhile_dropWhile_iff.2 ⟨rfl, fun c hc => ?_, rfl⟩
    rw [bne_iff_ne]
    rintro rfl
    exact Text.Numeral.notMem_of_isNumeral (Text.Numeral.isNumeral_decimal n) rfl hc
  have hbracket : "]".toList = [']'] := rfl
  have hl : Text.decimal i ++ ']' :: r.toList = Text.decimal j ++ ']' :: s.toList := by
    have hl := congrArg String.toList h
    simpa only [String.toList_append, hdigits, hbracket, List.append_assoc,
      List.singleton_append] using hl
  obtain ⟨hi, hr⟩ := hclosed i r.toList
  obtain ⟨hj, hs⟩ := hclosed j s.toList
  rw [hl] at hi hr
  have hd : Text.decimal i = Text.decimal j := hi.symm.trans hj
  constructor
  · rw [← Text.Numeral.value_decimal i, hd, Text.Numeral.value_decimal]
  · exact String.toList_inj.1 (List.cons.inj (hr.symm.trans hs)).2

namespace Within

variable {i j : Nat} {check other : Check} {rest rest' : String}

theorem key (h : Within i check rest) : check.key = routeKey i ++ rest := by
  cases h <;> simp only [Check.key, routeKey, String.append_assoc] <;> rfl

theorem isInRoutes (h : Within i check rest) {e : ValidationError} (he : e.key = check.key) :
    e.IsInRoutes :=
  isInRoutes_of_key (he.trans h.key)

theorem eq_of_rest (h : Within i check rest) (h' : Within i other rest') (he : rest = rest') :
    check = other := by
  have hl := congrArg String.toList he
  cases h with
  | method =>
    cases h' with
    | method => rfl
    | path | step _ => simp at hl
  | path =>
    cases h' with
    | path => rfl
    | method | step _ => simp at hl
  | step j =>
    cases h' with
    | method | path => simp at hl
    | step j' =>
      rw [String.append_assoc, String.append_assoc] at he
      have hn : toString j ++ "]" ++ "" = toString j' ++ "]" ++ "" := by
        rw [String.append_empty, String.append_empty]
        exact (String.append_right_inj _).1 he
      rw [(index_append_inj hn).1]

/-- A key in a route tells which route and which thing in it. -/
theorem eq_of_key (h : Within i check rest) (h' : Within j other rest')
    (hk : check.key = other.key) : check = other := by
  have he : toString i ++ "]" ++ rest = toString j ++ "]" ++ rest' := by
    rw [h.key, h'.key, routeKey, routeKey] at hk
    simp only [String.append_assoc] at hk ⊢
    exact (String.append_right_inj _).1 hk
  obtain ⟨rfl, hrest⟩ := index_append_inj he
  exact h.eq_of_rest h' hrest

end Within

theorem map_key_fields : fields.map key = fieldKeys := rfl

theorem eq_of_key_of_fields : ∀ check ∈ fields, ∀ other ∈ fields, check.key = other.key →
    check = other := by
  decide

theorem Within.key_ne {i : Nat} {check field : Check} {rest : String} (h : Within i check rest)
    (hf : field ∈ fields) : field.key ≠ check.key := by
  intro he
  have hin : ValidationError.IsInRoutes ⟨field.key, ""⟩ := h.isInRoutes he
  have hk : field.key ∈ fieldKeys := by
    rw [← map_key_fields]
    exact List.mem_map_of_mem hf
  exact not_isInRoutes_of_key hk hin

theorem key_injective : Function.Injective key := by
  intro check other hk
  rcases mem_fields_or_within check with h | ⟨i, rest, h⟩ <;>
    rcases mem_fields_or_within other with h' | ⟨j, rest', h'⟩
  · exact eq_of_key_of_fields check h other h' hk
  · exact absurd hk (h'.key_ne h)
  · exact absurd hk.symm (h.key_ne h')
  · exact h.eq_of_key h' hk

end Check

end Config

end QueryRouting
