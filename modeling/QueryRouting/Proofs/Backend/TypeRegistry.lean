import QueryRouting.Backend.TypeRegistry
import QueryRouting.Proofs.Keyed
import QueryRouting.Proofs.Traversal

namespace QueryRouting

open Traversal

/-- The numbers that a type carries. -/
inductive Numbers
  | none
  | length (n : Length)
  | precise (p s : Nat)
  | scaled (s : Nat)
  deriving DecidableEq, Repr

namespace Numbers

/-- The largest length is written without a number. -/
def written : Numbers → List Nat
  | .none => []
  | .length .max => []
  | .length (.fixed n) => [n]
  | .precise p s => [p, s]
  | .scaled s => [s]

def defaults : Numbers → List Nat
  | .none => []
  | .length _ => []
  | .precise _ _ => [18, 0]
  | .scaled _ => [7]

def Valid : Numbers → Prop
  | .none => True
  | .length n => n ≠ .fixed 0
  | .precise p s => 1 ≤ p ∧ p ≤ 38 ∧ s ≤ p
  | .scaled s => s ≤ 7

/-- The numbers are the arguments as given, with defaults for those that are left out. -/
def Reads (numbers : Numbers) (args : List Nat) : Prop :=
  numbers.Valid ∧ numbers.written = args ++ numbers.defaults.drop args.length

variable {numbers : Numbers} {args : List Nat}

theorem Valid.reads_written (h : numbers.Valid) : numbers.Reads numbers.written := by
  refine ⟨h, ?_⟩
  match numbers with
  | .none => rfl
  | .length .max => rfl
  | .length (.fixed _) => rfl
  | .precise _ _ => rfl
  | .scaled _ => rfl

theorem reads_none_iff : Numbers.none.Reads args ↔ args = [] := by
  simp [Reads, Valid, written, defaults, eq_comm]

theorem exists_reads_length_iff :
    (∃ l, (Numbers.length l).Reads args) ↔ args = [] ∨ ∃ n, args = [n] ∧ 0 < n := by
  simp only [Reads, Valid, defaults, List.drop_nil, List.append_nil]
  constructor
  · intro h
    obtain ⟨l, hl, rfl⟩ := h
    cases l with
    | max => exact .inl rfl
    | fixed n =>
      have hn : n ≠ 0 := fun he => hl (congrArg Length.fixed he)
      exact .inr ⟨n, rfl, Nat.pos_of_ne_zero hn⟩
  · intro h
    obtain rfl | ⟨n, rfl, hn⟩ := h
    · exact ⟨.max, nofun, rfl⟩
    · refine ⟨.fixed n, ?_, rfl⟩
      intro he
      exact absurd (Length.fixed.inj he) (Nat.ne_of_gt hn)

theorem exists_reads_precise_iff :
    (∃ p s, (Numbers.precise p s).Reads args) ↔
      args = [] ∨ (∃ p, args = [p] ∧ 1 ≤ p ∧ p ≤ 38) ∨
        ∃ p s, args = [p, s] ∧ 1 ≤ p ∧ p ≤ 38 ∧ s ≤ p := by
  match args with
  | [] => simp [Reads, Valid, written, defaults]
  | [p] => simp [Reads, Valid, written, defaults]
  | [p, s] => simp [Reads, Valid, written, defaults]
  | p :: s :: t :: rest => simp [Reads, Valid, written, defaults]

theorem exists_reads_scaled_iff :
    (∃ s, (Numbers.scaled s).Reads args) ↔ args = [] ∨ ∃ s, args = [s] ∧ s ≤ 7 := by
  match args with
  | [] => simp [Reads, Valid, written, defaults]
  | [s] => simp [Reads, Valid, written, defaults]
  | s :: t :: rest => simp [Reads, Valid, written, defaults]

end Numbers

namespace SqlType

/-- The name under which a type is registered. -/
def name : SqlType → String
  | .bit => "Bit"
  | .tinyInt => "TinyInt"
  | .smallInt => "SmallInt"
  | .int => "Int"
  | .bigInt => "BigInt"
  | .float => "Float"
  | .real => "Real"
  | .decimal _ _ => "Decimal"
  | .numeric _ _ => "Numeric"
  | .money => "Money"
  | .char _ => "Char"
  | .nChar _ => "NChar"
  | .varChar _ => "VarChar"
  | .nVarChar _ => "NVarChar"
  | .text => "Text"
  | .nText => "NText"
  | .binary _ => "Binary"
  | .varBinary _ => "VarBinary"
  | .date => "Date"
  | .dateTime => "DateTime"
  | .dateTime2 _ => "DateTime2"
  | .dateTimeOffset _ => "DateTimeOffset"
  | .time _ => "Time"
  | .uniqueIdentifier => "UniqueIdentifier"
  | .xml => "Xml"

def numbers : SqlType → Numbers
  | .decimal p s => .precise p s
  | .numeric p s => .precise p s
  | .char n => .length n
  | .nChar n => .length n
  | .varChar n => .length n
  | .nVarChar n => .length n
  | .binary n => .length n
  | .varBinary n => .length n
  | .dateTime2 s => .scaled s
  | .dateTimeOffset s => .scaled s
  | .time s => .scaled s
  | _ => .none

end SqlType

namespace TypeRegistry

section Registry

variable {registry : TypeRegistry} {name : String} {args : List Nat}

theorem construct_eq_ok_iff {type : SqlType} :
    registry.construct name args = .ok type ↔
      ∃ constructor, registry.constructors.find? name = some constructor ∧
        constructor args = .ok type := by
  unfold construct
  cases registry.constructors.find? name with
  | none => simp
  | some constructor => simp [mapError_eq_ok_iff]

theorem construct_eq_error_iff {e : ExecError} :
    registry.construct name args = .error e ↔
      (registry.constructors.find? name = none ∧ .unknownType name = e) ∨
      ∃ constructor reason, registry.constructors.find? name = some constructor ∧
        constructor args = .error reason ∧ .typeArguments name args reason = e := by
  unfold construct
  cases registry.constructors.find? name with
  | none => simp
  | some constructor => simp [mapError_eq_error_iff]

theorem constructors_ofList (types : List (String × TypeConstructor)) :
    (ofList types).constructors = Keyed.ofList types := by
  have hall (registry : TypeRegistry) :
      (types.foldl (fun registry type => registry.register type.1 type.2)
        registry).constructors = Keyed.insertAll registry.constructors types := by
    induction types generalizing registry with
    | nil => rfl
    | cons type types ih => exact ih _
  exact hall empty

end Registry

section Families

variable {quantity : String} {args : List Nat} {max n m p s p' s' : Nat}

theorem atMost_eq_ok_iff : atMost quantity max n = .ok m ↔ n ≤ max ∧ n = m := by
  unfold atMost
  split
  · rename_i h
    simp [h]
  · rename_i h
    simp [h]

theorem checkPrecision_eq_ok_iff :
    checkPrecision p s = .ok (p', s') ↔ (1 ≤ p ∧ s ≤ p) ∧ p = p' ∧ s = s' := by
  unfold checkPrecision
  split
  · simp
    omega
  · simp
    omega

theorem length_eq_ok_iff {l : Length} : length args = .ok l ↔ (Numbers.length l).Reads args := by
  simp only [Numbers.Reads, Numbers.Valid, Numbers.defaults, List.drop_nil, List.append_nil]
  match args with
  | [] => cases l <;> simp [length, Numbers.written]
  | [0] => cases l <;> simp [length, Numbers.written]
  | [n + 1] =>
    cases l with
    | max => simp [length, Numbers.written]
    | fixed m =>
      simp [length, Numbers.written]
      omega
  | n :: m :: rest => cases l <;> simp [length, Numbers.written]

theorem precisionAndScale_eq_ok_iff {k : Nat × Nat} :
    precisionAndScale args = .ok k ↔ (Numbers.precise k.1 k.2).Reads args := by
  obtain ⟨p, s⟩ := k
  simp only [Numbers.Reads, Numbers.Valid, Numbers.written, Numbers.defaults]
  match args with
  | [] =>
    rw [precisionAndScale, checkPrecision_eq_ok_iff]
    simp
    omega
  | [a] =>
    simp only [precisionAndScale, bind_eq_ok_iff, atMost_eq_ok_iff, checkPrecision_eq_ok_iff]
    simp [maxPrecision]
    omega
  | [a, b] =>
    simp only [precisionAndScale, bind_eq_ok_iff, atMost_eq_ok_iff, checkPrecision_eq_ok_iff]
    simp [maxPrecision]
    omega
  | a :: b :: c :: rest => simp [precisionAndScale]

theorem scale_eq_ok_iff : scale args = .ok s ↔ (Numbers.scaled s).Reads args := by
  simp only [Numbers.Reads, Numbers.Valid, Numbers.written, Numbers.defaults]
  match args with
  | [] =>
    simp [scale, maxScale]
    omega
  | [a] =>
    simp [scale, atMost_eq_ok_iff, maxScale]
    omega
  | a :: b :: rest => simp [scale]

variable {build : κ → SqlType} {constructor : TypeConstructor} {type : SqlType}

/-- A constructor takes the arguments that the numbers of its types can be read from. -/
def Builds (constructor : TypeConstructor) (build : κ → SqlType) : Prop :=
  ∀ args type, constructor args = .ok type ↔ ∃ k, (build k).numbers.Reads args ∧ build k = type

theorem plain_builds {build : Unit → SqlType} (h : ∀ k, (build k).numbers = .none) :
    Builds (plain (build ())) build := by
  intro args type
  simp only [h, Numbers.reads_none_iff]
  cases args with
  | nil => simp [plain, Unique.exists_iff]
  | cons n args => simp [plain]

theorem sized_builds {build : Length → SqlType} (h : ∀ l, (build l).numbers = .length l) :
    Builds (sized build) build := by
  intro args type
  simp only [sized, map_eq_ok_iff, length_eq_ok_iff, h]

theorem exact_builds {build : Nat × Nat → SqlType}
    (h : ∀ k, (build k).numbers = .precise k.1 k.2) :
    Builds (exact fun p s => build (p, s)) build := by
  intro args type
  simp only [exact, map_eq_ok_iff, precisionAndScale_eq_ok_iff, h]

theorem scaled_builds {build : Nat → SqlType} (h : ∀ s, (build s).numbers = .scaled s) :
    Builds (scaled build) build := by
  intro args type
  simp only [scaled, map_eq_ok_iff, scale_eq_ok_iff, h]

end Families

section Standard

variable {name : String} {args : List Nat} {constructor : TypeConstructor} {type : SqlType}

def plainNames : List String :=
  ["Bit", "TinyInt", "SmallInt", "Int", "BigInt", "Float", "Real", "Money", "Text", "NText", "Date",
    "DateTime", "UniqueIdentifier", "Xml"]

def sizedNames : List String :=
  ["Char", "NChar", "VarChar", "NVarChar", "Binary", "VarBinary"]

def preciseNames : List String :=
  ["Decimal", "Numeric"]

def scaledNames : List String :=
  ["DateTime2", "DateTimeOffset", "Time"]

def standardNames : List String :=
  plainNames ++ sizedNames ++ preciseNames ++ scaledNames

theorem standardNames_perm : (standardTypes.map (·.1)).Perm standardNames := by
  decide

theorem find?_standard_iff :
    standard.constructors.find? name = some constructor ↔ (name, constructor) ∈ standardTypes := by
  have hn : (standardTypes.map (·.1)).Nodup := by decide
  rw [standard, constructors_ofList, Keyed.find?_ofList_eq_some_iff hn]

theorem find?_standard_eq_none_iff :
    standard.constructors.find? name = none ↔ name ∉ standardNames := by
  rw [← standardNames_perm.mem_iff, ← Keyed.exists_find?_ofList_iff, ← constructors_ofList,
    ← standard, Option.eq_none_iff_forall_ne_some, not_exists]

theorem construct_standard_iff (h : (name, constructor) ∈ standardTypes) :
    standard.construct name args = .ok type ↔ constructor args = .ok type := by
  have hf := find?_standard_iff.2 h
  rw [construct_eq_ok_iff]
  simp [hf]

/-- A name of the standard registry, with the types that are built for it. -/
structure Registers (name : String) (build : κ → SqlType) : Prop where
  named : ∀ k, (build k).name = name
  constructs : ∀ args type, standard.construct name args = .ok type ↔
    ∃ k, (build k).numbers.Reads args ∧ build k = type

theorem registers_of_family {κ : Type} {family : (κ → SqlType) → TypeConstructor}
    {numbers : κ → Numbers} (builds : List (κ → SqlType)) (k₀ : κ)
    (hfamily : ∀ build, (∀ k, (build k).numbers = numbers k) → Builds (family build) build)
    (hall : ∀ build ∈ builds,
      (∀ k, (build k).name = (build k₀).name ∧ (build k).numbers = numbers k) ∧
        ((build k₀).name, family build) ∈ standardTypes)
    (h : name ∈ builds.map fun build => (build k₀).name) :
    ∃ build : κ → SqlType, (∀ k, (build k).numbers = numbers k) ∧ Registers name build := by
  obtain ⟨build, hm, rfl⟩ := List.mem_map.1 h
  obtain ⟨hk, hs⟩ := hall build hm
  have hn (k : κ) := (hk k).2
  refine ⟨build, hn, fun k => (hk k).1, ?_⟩
  intro args type
  exact (construct_standard_iff hs).trans (hfamily build hn args type)

def plainTypes : List (Unit → SqlType) :=
  [SqlType.bit, .tinyInt, .smallInt, .int, .bigInt, .float, .real, .money, .text, .nText, .date,
    .dateTime, .uniqueIdentifier, .xml].map fun type _ => type

def sizedTypes : List (Length → SqlType) :=
  [.char, .nChar, .varChar, .nVarChar, .binary, .varBinary]

def preciseTypes : List (Nat × Nat → SqlType) :=
  [fun k => .decimal k.1 k.2, fun k => .numeric k.1 k.2]

def scaledTypes : List (Nat → SqlType) :=
  [.dateTime2, .dateTimeOffset, .time]

theorem registers_plain (h : name ∈ plainNames) :
    ∃ build : Unit → SqlType, (∀ k, (build k).numbers = .none) ∧ Registers name build := by
  apply registers_of_family plainTypes () (fun build => plain_builds) ?_ h
  simp [plainTypes, standardTypes, SqlType.name, SqlType.numbers]

theorem registers_sized (h : name ∈ sizedNames) :
    ∃ build : Length → SqlType, (∀ l, (build l).numbers = .length l) ∧ Registers name build := by
  apply registers_of_family sizedTypes .max (fun build => sized_builds) ?_ h
  simp [sizedTypes, standardTypes, SqlType.name, SqlType.numbers]

theorem registers_precise (h : name ∈ preciseNames) : ∃ build : Nat × Nat → SqlType,
    (∀ k, (build k).numbers = .precise k.1 k.2) ∧ Registers name build := by
  apply registers_of_family preciseTypes (0, 0) (fun build => exact_builds) ?_ h
  simp [preciseTypes, standardTypes, SqlType.name, SqlType.numbers]

theorem registers_scaled (h : name ∈ scaledNames) :
    ∃ build : Nat → SqlType, (∀ s, (build s).numbers = .scaled s) ∧ Registers name build := by
  apply registers_of_family scaledTypes 0 (fun build => scaled_builds) ?_ h
  simp [scaledTypes, standardTypes, SqlType.name, SqlType.numbers]

theorem Registers.sound {κ : Type} {build : κ → SqlType} (h : Registers name build)
    (hc : standard.construct name args = .ok type) :
    type.name = name ∧ type.numbers.Reads args ∧
      standard.construct name type.numbers.written = .ok type := by
  obtain ⟨k, hr, rfl⟩ := (h.constructs args type).1 hc
  exact ⟨h.named k, hr, (h.constructs _ _).2 ⟨k, hr.1.reads_written, rfl⟩⟩

theorem Registers.accepts {κ : Type} {build : κ → SqlType} (h : Registers name build) :
    (∃ type, standard.construct name args = .ok type) ↔ ∃ k, (build k).numbers.Reads args := by
  simp only [h.constructs]
  constructor
  · intro hc
    obtain ⟨type, k, hr, -⟩ := hc
    exact ⟨k, hr⟩
  · intro hc
    obtain ⟨k, hr⟩ := hc
    exact ⟨_, k, hr, rfl⟩

theorem exists_registers (h : name ∈ standardNames) :
    ∃ (κ : Type) (build : κ → SqlType), Registers name build := by
  simp only [standardNames, List.mem_append] at h
  obtain ((h | h) | h) | h := h
  · obtain ⟨build, -, hr⟩ := registers_plain h
    exact ⟨_, build, hr⟩
  · obtain ⟨build, -, hr⟩ := registers_sized h
    exact ⟨_, build, hr⟩
  · obtain ⟨build, -, hr⟩ := registers_precise h
    exact ⟨_, build, hr⟩
  · obtain ⟨build, -, hr⟩ := registers_scaled h
    exact ⟨_, build, hr⟩

theorem construct_sound (hc : standard.construct name args = .ok type) :
    type.name = name ∧ type.numbers.Reads args ∧
      standard.construct name type.numbers.written = .ok type := by
  have hn : name ∈ standardNames := by
    by_contra hn
    obtain ⟨constructor, hf, -⟩ := construct_eq_ok_iff.1 hc
    cases hf.symm.trans (find?_standard_eq_none_iff.2 hn)
  obtain ⟨κ, build, hr⟩ := exists_registers hn
  exact hr.sound hc

/-- A number as a byte, if it is one and within a bound. -/
def narrow (quantity : String) (max : UInt8) (n : UInt32) : Except Rejection UInt8 :=
  if n.toNat < UInt8.size ∧ n.toUInt8 ≤ max then .ok n.toUInt8
  else .error (.exceeds quantity max.toNat)

theorem map_toNat_narrow (quantity : String) (max : UInt8) (n : UInt32) :
    (narrow quantity max n).map UInt8.toNat = atMost quantity max.toNat n.toNat := by
  have hmax : max.toNat < UInt8.size := max.toNat_lt
  have hbyte (h : n.toNat < UInt8.size) : n.toUInt8.toNat = n.toNat := by
    rw [UInt32.toNat_toUInt8]
    exact Nat.mod_eq_of_lt h
  rw [narrow, atMost]
  by_cases hn : n.toNat ≤ max.toNat
  · have hsize : n.toNat < UInt8.size := Nat.lt_of_le_of_lt hn hmax
    have hle : n.toUInt8 ≤ max := by
      rw [UInt8.le_iff_toNat_le, hbyte hsize]
      exact hn
    rw [if_pos ⟨hsize, hle⟩, if_pos hn, Except.map, hbyte hsize]
  · have hgt : ¬ (n.toNat < UInt8.size ∧ n.toUInt8 ≤ max) := by
      intro h
      rw [UInt8.le_iff_toNat_le, hbyte h.1] at h
      exact hn h.2
    rw [if_neg hgt, if_neg hn, Except.map]

/--
The arguments that the names of the standard registry take, and what is built for them: a type of
that name with valid numbers, which are those given and behind them defaults, and which build the
type again. Bounds are checked before numbers become bytes, and every rejection tells what it was
given.
-/
theorem construct_standard (name : String) (args : List Nat) :
    (name ∈ plainNames → ((∃ type, standard.construct name args = .ok type) ↔ args = [])) ∧
    (name ∈ sizedNames → ((∃ type, standard.construct name args = .ok type) ↔
      args = [] ∨ ∃ n, args = [n] ∧ 0 < n)) ∧
    (name ∈ preciseNames → ((∃ type, standard.construct name args = .ok type) ↔
      args = [] ∨ (∃ p, args = [p] ∧ 1 ≤ p ∧ p ≤ 38) ∨
        ∃ p s, args = [p, s] ∧ 1 ≤ p ∧ p ≤ 38 ∧ s ≤ p)) ∧
    (name ∈ scaledNames → ((∃ type, standard.construct name args = .ok type) ↔
      args = [] ∨ ∃ s, args = [s] ∧ s ≤ 7)) ∧
    (∀ type, standard.construct name args = .ok type → type.name = name ∧ type.numbers.Valid ∧
      type.numbers.written = args ++ type.numbers.defaults.drop args.length ∧
      standard.construct name type.numbers.written = .ok type) ∧
    (∀ quantity (max : UInt8) (n : UInt32),
      (narrow quantity max n).map UInt8.toNat = atMost quantity max.toNat n.toNat) ∧
    (name ∉ standardNames → standard.construct name args = .error (.unknownType name)) ∧
    (name ∈ standardNames → ∀ e, standard.construct name args = .error e →
      ∃ reason, e = .typeArguments name args reason) := by
  refine ⟨?_, ?_, ?_, ?_, ?_, map_toNat_narrow, ?_, ?_⟩
  · intro h
    obtain ⟨build, hn, hr⟩ := registers_plain h
    rw [hr.accepts]
    simp only [hn, Numbers.reads_none_iff, exists_const]
  · intro h
    obtain ⟨build, hn, hr⟩ := registers_sized h
    rw [hr.accepts, ← Numbers.exists_reads_length_iff]
    simp only [hn]
  · intro h
    obtain ⟨build, hn, hr⟩ := registers_precise h
    rw [hr.accepts, ← Numbers.exists_reads_precise_iff]
    simp only [hn, Prod.exists]
  · intro h
    obtain ⟨build, hn, hr⟩ := registers_scaled h
    rw [hr.accepts, ← Numbers.exists_reads_scaled_iff]
    simp only [hn]
  · intro type hc
    obtain ⟨hname, hr, hagain⟩ := construct_sound hc
    exact ⟨hname, hr.1, hr.2, hagain⟩
  · intro h
    exact construct_eq_error_iff.2 (.inl ⟨find?_standard_eq_none_iff.2 h, rfl⟩)
  · intro h e he
    obtain ⟨hf, -⟩ | ⟨constructor, reason, -, -, rfl⟩ := construct_eq_error_iff.1 he
    · exact absurd h (find?_standard_eq_none_iff.1 hf)
    · exact ⟨reason, rfl⟩

example : standard.construct "Decimal" [256 + 10, 2] =
    .error (.typeArguments "Decimal" [266, 2] (.exceeds "precision" 38)) := by cbv

end Standard

end TypeRegistry

end QueryRouting
