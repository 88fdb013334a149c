/-!
Status codes: the integers from 100 to 999.
-/

namespace QueryRouting

structure Status where
  code : Nat
  valid : 100 ≤ code ∧ code ≤ 999
  deriving DecidableEq, Repr

namespace Status

def ofCode? (code : Nat) : Option Status :=
  if h : 100 ≤ code ∧ code ≤ 999 then some ⟨code, h⟩ else none

def ok : Status := ⟨200, by decide⟩

def badRequest : Status := ⟨400, by decide⟩

def notFound : Status := ⟨404, by decide⟩

def payloadTooLarge : Status := ⟨413, by decide⟩

def internalServerError : Status := ⟨500, by decide⟩

def isSuccess (status : Status) : Bool :=
  200 ≤ status.code && status.code < 300

theorem ofCode?_isSome {code : Nat} : (ofCode? code).isSome ↔ 100 ≤ code ∧ code ≤ 999 := by
  unfold ofCode?
  split <;> simp_all

theorem code_of_ofCode? {code : Nat} {status : Status} (h : ofCode? code = some status) :
    status.code = code := by
  unfold ofCode? at h
  split at h
  · cases h
    rfl
  · cases h

end Status

end QueryRouting
