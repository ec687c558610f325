import Mathlib.Algebra.Ring.Int.Defs
import NGraphBridge.Lib.Machine
import NGraphBridge.Lib.Recency
import NGraphBridge.TF.Graph

/-!
# The executables of a kernel

A kernel keeps the executables of the signatures it has seen, and the signatures
in the order of their last use.
-/

namespace NGraphBridge.NGraphEncapsulateOp

open TF Recency

/-- The members of a kernel that `GetExecutable` works on. -/
structure Cache (Exec : Type) where
  m_name : String
  m_function_cache_depth_in_items : Int32
  m_lru : List String
  m_ng_exec_map : List (String × Exec)

/-- What a call finds: the signature of its inputs, the value of
`NGRAPH_TF_FUNCTION_CACHE_ITEM_DEPTH`, and how translation and compilation
end. -/
structure Call (Exec : Type) where
  signature : StatusOr String
  cache_depth_specified : Option Int32
  translated : StatusOr Unit
  compiled : Except String Exec

/-- `undefined` is a read of the first or last element of an empty list. -/
inductive Outcome (Exec : Type) where
  | returned (ng_exec : Exec)
  | failed (error : Error)
  | undefined

namespace Cache

variable {Exec : Type}

/-- A depth as the size that the number of items is compared with: the
conversion to 64 bits wraps negative depths. -/
def asSize (depth : Int32) : Nat :=
  (depth.toInt % 2 ^ 64).toNat

def keys (cache : Cache Exec) : List String :=
  cache.m_ng_exec_map.map Prod.fst

def init (m_name : String) : Cache Exec := ⟨m_name, 16, [], []⟩

def evict (cache : Cache Exec) : Option (Cache Exec) :=
  match cache.m_lru.getLast? with
  | none => none
  | some back => some { cache with
      m_ng_exec_map := cache.m_ng_exec_map.filter (·.1 ≠ back)
      m_lru := cache.m_lru.dropLast }

def makeRoom (cache : Cache Exec) : Option (Cache Exec) :=
  if cache.m_ng_exec_map.length ≥
    asSize cache.m_function_cache_depth_in_items then
    cache.evict
  else
    some cache

def store (cache : Cache Exec) (signature : String) (ng_exec : Exec) :
    Cache Exec :=
  { cache with
    m_ng_exec_map :=
      (signature, ng_exec) :: cache.m_ng_exec_map.filter (·.1 ≠ signature)
    m_lru := signature :: cache.m_lru }

def miss (cache : Cache Exec) (call : Call Exec) (signature : String) :
    Cache Exec × Outcome Exec :=
  match call.translated with
  | .error error => (cache, .failed error)
  | .ok () =>
      let cache := { cache with
        m_function_cache_depth_in_items :=
          call.cache_depth_specified.getD
            cache.m_function_cache_depth_in_items }
      match cache.makeRoom with
      | none => (cache, .undefined)
      | some roomy =>
          match call.compiled with
          | .error what => (roomy, .failed
              (errors.internal
                ("Failed to compile function " ++ cache.m_name ++
                  ": " ++ what)))
          | .ok ng_exec => (roomy.store signature ng_exec, .returned ng_exec)

def hit (cache : Cache Exec) (signature : String) (ng_exec : Exec) :
    Cache Exec × Outcome Exec :=
  match cache.m_lru.head? with
  | none => (cache, .undefined)
  | some front =>
      if signature ≠ front then
        ({ cache with m_lru :=
              signature :: cache.m_lru.filter (· ≠ signature) },
                .returned ng_exec)
      else
        (cache, .returned ng_exec)

def GetExecutable (cache : Cache Exec) (call : Call Exec) :
    Cache Exec × Outcome Exec :=
  match call.signature with
  | .error error => (cache, .failed error)
  | .ok signature =>
      match cache.m_ng_exec_map.lookup signature with
      | none => cache.miss call signature
      | some ng_exec => cache.hit signature ng_exec

end Cache

def kernel (Exec : Type) : Machine (Cache Exec) (Call Exec) (Outcome Exec) where
  step := Cache.GetExecutable

abbrev Entry (Exec : Type) :=
  Machine.Entry (Cache Exec) (Call Exec) (Outcome Exec)

variable {Exec : Type}

/-- The signature that a call used: calls that fail use none. -/
def usedSignature (entry : Entry Exec) : Option String :=
  match entry.output, entry.input.signature with
  | .returned _, .ok signature => some signature
  | _, _ => none

/-- The depth that a miss goes by. -/
def depthOf (entry : Entry Exec) : Int32 :=
  entry.input.cache_depth_specified.getD
    entry.before.m_function_cache_depth_in_items

/-- The call looks for this signature and does not find it. -/
def Misses (entry : Entry Exec) (signature : String) : Prop :=
  entry.input.signature = .ok signature ∧
    entry.before.m_ng_exec_map.lookup signature = none

instance (entry : Entry Exec) (signature : String) :
    Decidable (Misses entry signature) :=
  match isOk : entry.input.signature, isNone :
    entry.before.m_ng_exec_map.lookup signature with
  | .ok other, none =>
      decidable_of_iff (other = signature) (by simp [Misses, isOk, isNone])
  | .ok _, some _ => .isFalse (by simp [Misses, isNone])
  | .error _, _ => .isFalse (by simp [Misses, isOk])

/-- The executable that a call compiled and stored. -/
def compilation (entry : Entry Exec) : Option (String × Exec) :=
  match entry.output, entry.input.signature with
  | .returned ng_exec, .ok signature =>
      if Misses entry signature then some (signature, ng_exec) else none
  | _, _ => none

/-- The signatures used, the latest first. -/
def uses (past : List (Entry Exec)) : List String :=
  past.reverse.filterMap usedSignature

/-- The executables compiled, the latest first. -/
def compilations (past : List (Entry Exec)) : List (String × Exec) :=
  past.reverse.filterMap compilation

theorem uses_append (past : List (Entry Exec)) (entry : Entry Exec) :
    uses (past ++ [entry]) = (usedSignature entry).toList ++ uses past := by
  cases used : usedSignature entry with
  | none => simp [uses, used]
  | some signature => simp [uses, used]

theorem compilations_append (past : List (Entry Exec)) (entry : Entry Exec) :
    compilations (past ++ [entry]) = (compilation entry).toList ++
      compilations past := by
  cases compiled : compilation entry with
  | none => simp [compilations, compiled]
  | some pair => simp [compilations, compiled]

/-- What holds of the members after some calls. -/
structure Cache.Inv (past : List (Entry Exec)) (cache : Cache Exec) : Prop where
  ordered : ByRecency (uses past) cache.m_lru
  keysNodup : cache.keys.Nodup
  keys : ∀ signature, signature ∈ cache.m_lru ↔ signature ∈ cache.keys
  compiled : ∀ signature ng_exec, cache.m_ng_exec_map.lookup signature =
    some ng_exec →
    (compilations past).lookup signature = some ng_exec

/-- What the cache owes a call. -/
structure EntryCorrect (earlier : List (Entry Exec)) (entry : Entry Exec) :
    Prop where
  defined : entry.output ≠ .undefined
  nodup : entry.after.m_lru.Nodup
  keys : ∀ signature, signature ∈ entry.after.m_lru ↔
    signature ∈ entry.after.keys
  keysNodup : entry.after.keys.Nodup
  ordered : ByRecency (uses (earlier ++ [entry])) entry.after.m_lru
  hit : ∀ signature ng_exec, entry.input.signature = .ok signature →
    entry.before.m_ng_exec_map.lookup signature = some ng_exec →
    entry.output = .returned ng_exec ∧
    (compilations earlier).lookup signature = some ng_exec
  capacity : ∀ signature ng_exec, Misses entry signature →
    entry.output = .returned ng_exec →
    (entry.after.m_ng_exec_map.length : Int) ≤ max (depthOf entry).toInt 1
  evicted : ∀ signature ∈ entry.before.keys, signature ∉ entry.after.keys →
    ∀ other ∈ entry.before.keys, other ≠ signature →
    MoreRecent (uses earlier) other signature

/-- The condition on a call: a miss that gets as far as making room finds a
depth that lets it, and the number of items does not exceed the depth. -/
def RoomFor (entry : Entry Exec) : Prop :=
  ∀ signature, Misses entry signature → entry.input.translated = .ok () →
    let depth := (depthOf entry).toInt
    let items := entry.before.m_ng_exec_map.length
    (items = 0 → depth ≠ 0) ∧
    ∀ ng_exec, entry.input.compiled = .ok ng_exec →
      1 ≤ depth ∧ items ≤ depth ∨ depth = 0 ∧ items = 1 ∨ depth < 0 ∧ items = 0

theorem lookup_eq_none {map : List (String × Exec)} {signature : String} :
    map.lookup signature = none ↔ signature ∉ map.map Prod.fst := by
  rw [List.lookup_eq_none_iff]
  constructor
  · intro apart member
    obtain ⟨pair, inMap, same⟩ := List.mem_map.mp member
    simpa [same] using apart pair inMap
  · intro missing pair inMap
    have apart : signature ≠ pair.1 := by
      intro same
      exact missing (same ▸ List.mem_map_of_mem inMap)
    simpa using apart

theorem lookup_filter {map : List (String × Exec)} {signature gone : String}
    (apart : signature ≠ gone) :
    (map.filter (·.1 ≠ gone)).lookup signature = map.lookup signature := by
  induction map with
  | nil => rfl
  | cons pair map ih =>
      obtain ⟨key, ng_exec⟩ := pair
      by_cases isGone : key = gone
      · have other : (signature == key) = false := by simpa [isGone] using apart
        rw [List.filter_cons_of_neg (by simpa using isGone), ih,
          List.lookup_cons, other]
      · rw [List.filter_cons_of_pos (by simpa using isGone), List.lookup_cons,
          List.lookup_cons, ih]

theorem filter_keys (map : List (String × Exec)) (gone : String) :
    (map.filter (·.1 ≠ gone)).map Prod.fst = (map.map Prod.fst).filter
      (· ≠ gone) := by
  rw [List.filter_map]
  rfl

theorem length_filter_keys {map : List (String × Exec)}
    (distinct : (map.map Prod.fst).Nodup) {gone : String}
    (member : gone ∈ map.map Prod.fst) :
    (map.filter (·.1 ≠ gone)).length + 1 = map.length := by
  have keysLength : (map.filter (·.1 ≠ gone)).length =
      ((map.map Prod.fst).filter (· ≠ gone)).length := by
    rw [← filter_keys, List.length_map]
  have erased : (map.map Prod.fst).filter (· ≠ gone) =
      (map.map Prod.fst).erase gone := by
    rw [distinct.erase_eq_filter]
    apply List.filter_congr
    intro key _
    exact Bool.eq_iff_iff.mpr (by simp)
  have some_ := List.length_pos_of_mem member
  have one := List.length_erase_of_mem member
  rw [List.length_map] at some_ one
  rw [keysLength, erased, one]
  omega

namespace Cache

variable {cache next : Cache Exec} {past : List (Entry Exec)}

theorem evict_eq_none : cache.evict = none ↔ cache.m_lru = [] := by
  unfold evict
  cases last : cache.m_lru.getLast? with
  | none => simp [List.getLast?_eq_none_iff.mp last]
  | some back =>
      have some_ : cache.m_lru ≠ [] := by
        intro empty
        simp [empty] at last
      simp [some_]

/-- What an eviction takes is the least recently used signature. -/
theorem Inv.evict (inv : cache.Inv past) (success : cache.evict = some next) :
    next.Inv past ∧ next.m_name = cache.m_name ∧
      next.m_ng_exec_map.length + 1 = cache.m_ng_exec_map.length ∧
      ∃ back ∈ cache.keys, (∀ signature, signature ∈ next.keys ↔
          signature ∈ cache.keys ∧ signature ≠ back) ∧
        ∀ other ∈ cache.keys, other ≠ back →
        MoreRecent (uses past) other back := by
  unfold Cache.evict at success
  cases last : cache.m_lru.getLast? with
  | none => simp [last] at success
  | some back =>
      rw [last] at success
      obtain rfl := Option.some.inj success
      obtain ⟨before, isLru⟩ := List.getLast?_eq_some_iff.mp last
      have distinct := inv.ordered.nodup
      have backLru : back ∈ cache.m_lru := by simp [isLru]
      have backKey := (inv.keys back).mp backLru
      have nextKeys : ∀ signature,
          signature ∈ (cache.m_ng_exec_map.filter (·.1 ≠ back)).map Prod.fst ↔
            signature ∈ cache.keys ∧ signature ≠ back := by
        intro signature
        rw [filter_keys, List.mem_filter]
        simp [Cache.keys]
      have nextLru : ∀ signature, signature ∈ cache.m_lru.dropLast ↔
          signature ∈ cache.m_lru ∧ signature ≠ back := by
        intro signature
        rw [isLru] at distinct ⊢
        rw [List.dropLast_concat, List.mem_append, List.mem_singleton]
        have apart := (List.nodup_append.mp distinct).2.2
        constructor
        · exact fun member =>
            ⟨.inl member, apart signature member back
              (List.mem_singleton_self _)⟩
        · exact fun both => both.1.resolve_right both.2
      refine ⟨⟨inv.ordered.sublist (List.dropLast_sublist _), ?_, ?_, ?_⟩, rfl,
        length_filter_keys inv.keysNodup backKey, back, backKey, nextKeys, ?_⟩
      · unfold Cache.keys
        rw [filter_keys]
        exact inv.keysNodup.filter _
      · intro signature
        rw [nextLru, inv.keys]
        exact (nextKeys signature).symm
      · intro signature ng_exec found
        apply inv.compiled
        have apart : signature ≠ back := by
          intro same
          have missing :
              (cache.m_ng_exec_map.filter (·.1 ≠ back)).lookup signature =
                none := by
            apply lookup_eq_none.mpr
            intro member
            exact ((nextKeys signature).mp member).2 same
          have impossible := missing.symm.trans found
          simp at impossible
        rwa [← lookup_filter apart]
      · intro other member apart
        exact inv.ordered.last last ((inv.keys other).mpr member) apart

theorem Inv.setDepth (inv : cache.Inv past) (depth : Int32) :
    Inv past { cache with m_function_cache_depth_in_items := depth } :=
  ⟨inv.ordered, inv.keysNodup, inv.keys, inv.compiled⟩

/-- What making room can do. -/
theorem Inv.makeRoom (inv : cache.Inv past)
    (success : cache.makeRoom = some next) :
    next.Inv past ∧
      (cache.m_ng_exec_map.length <
        asSize cache.m_function_cache_depth_in_items ∧ next = cache ∨
      asSize cache.m_function_cache_depth_in_items ≤
        cache.m_ng_exec_map.length ∧
        cache.evict = some next) := by
  unfold Cache.makeRoom at success
  split at success
  case isTrue full =>
    obtain ⟨nextInv, _⟩ := inv.evict success
    exact ⟨nextInv, .inr ⟨full, success⟩⟩
  case isFalse roomy =>
    obtain rfl := Option.some.inj success
    exact ⟨inv, .inl ⟨Nat.lt_of_not_le roomy, rfl⟩⟩

theorem Inv.makeRoom_none (inv : cache.Inv past) : cache.makeRoom = none ↔
    asSize cache.m_function_cache_depth_in_items = 0 ∧
    cache.m_ng_exec_map.length = 0 := by
  have lruLength : cache.m_lru = [] ↔ cache.m_ng_exec_map.length = 0 := by
    constructor
    · intro empty
      apply Nat.eq_zero_of_not_pos
      intro some_
      obtain ⟨pair, member⟩ := List.exists_mem_of_length_pos some_
      have inLru := (inv.keys pair.1).mpr (List.mem_map_of_mem member)
      simp [empty] at inLru
    · intro empty
      apply List.eq_nil_iff_forall_not_mem.mpr
      intro signature member
      have inKeys := (inv.keys signature).mp member
      rw [Cache.keys, List.eq_nil_of_length_eq_zero empty] at inKeys
      simp at inKeys
  unfold Cache.makeRoom
  split
  case isTrue full =>
    rw [evict_eq_none, lruLength]
    constructor
    · exact fun empty => ⟨by omega, empty⟩
    · exact fun both => both.2
  case isFalse roomy =>
    constructor
    · exact fun impossible => absurd impossible (by simp)
    · rintro ⟨zero, empty⟩
      omega

theorem Inv.skip (inv : cache.Inv past) {entry : Entry Exec}
    (failed : ∀ ng_exec, entry.output ≠ .returned ng_exec) :
    cache.Inv (past ++ [entry]) := by
  have noUse : usedSignature entry = none := by
    unfold usedSignature
    split
    case h_1 returned _ => exact absurd returned (failed _)
    case h_2 => rfl
  have noCompilation : compilation entry = none := by
    unfold compilation
    split
    case h_1 returned _ => exact absurd returned (failed _)
    case h_2 => rfl
  refine ⟨?_, inv.keysNodup, inv.keys, ?_⟩
  · rw [uses_append, noUse]
    exact inv.ordered
  · rw [compilations_append, noCompilation]
    exact inv.compiled

theorem Inv.store (inv : cache.Inv past) {entry : Entry Exec}
    {signature : String} {ng_exec : Exec} (missing : signature ∉ cache.keys)
    (misses : Misses entry signature)
    (returned : entry.output = .returned ng_exec) :
    (cache.store signature ng_exec).Inv (past ++ [entry]) := by
  have isUse : usedSignature entry = some signature := by
    rw [usedSignature, returned, misses.1]
  have isCompilation : compilation entry = some (signature, ng_exec) := by
    rw [compilation, returned, misses.1]
    exact if_pos misses
  have notInLru : signature ∉ cache.m_lru :=
    fun member => missing ((inv.keys _).mp member)
  have others : cache.m_ng_exec_map.filter (·.1 ≠ signature) =
      cache.m_ng_exec_map := by
    apply List.filter_eq_self.mpr
    intro pair member
    have apart : pair.1 ≠ signature := by
      intro same
      exact missing (same ▸ List.mem_map_of_mem member)
    simpa using apart
  have storeKeys : (cache.store signature ng_exec).keys = signature ::
      cache.keys := by
    simp only [Cache.keys, Cache.store, others, List.map_cons]
  constructor
  case ordered =>
    rw [uses_append, isUse]
    have used := inv.ordered.use signature
    rw [List.filter_eq_self.mpr] at used
    · exact used
    · intro other member
      have apart : other ≠ signature := fun same => notInLru (same ▸ member)
      simpa using apart
  case keysNodup =>
    rw [storeKeys]
    exact List.nodup_cons.mpr ⟨missing, inv.keysNodup⟩
  case keys =>
    intro other
    rw [storeKeys, List.mem_cons, ← inv.keys]
    exact List.mem_cons
  case compiled =>
    intro other otherExec found
    rw [compilations_append, isCompilation]
    simp only [Cache.store, others, List.lookup_cons] at found
    simp only [Option.toList_some, List.cons_append, List.nil_append,
      List.lookup_cons]
    split at found
    case h_1 => exact found
    case h_2 => exact inv.compiled other otherExec found

theorem Inv.touch (inv : cache.Inv past) {entry : Entry Exec}
    {signature : String} {ng_exec : Exec}
    (isSignature : entry.input.signature = .ok signature)
    (found : entry.before.m_ng_exec_map.lookup signature = some ng_exec)
    (returned : entry.output = .returned ng_exec)
    (member : signature ∈ cache.keys) :
    Inv (past ++ [entry])
      { cache with m_lru :=
        signature :: cache.m_lru.filter (· ≠ signature) } := by
  have isUse : usedSignature entry = some signature := by
    rw [usedSignature, returned, isSignature]
  have noCompilation : compilation entry = none := by
    rw [compilation, returned, isSignature]
    apply if_neg
    intro misses
    rw [misses.2] at found
    simp at found
  constructor
  case ordered =>
    rw [uses_append, isUse]
    exact inv.ordered.use signature
  case keysNodup => exact inv.keysNodup
  case keys =>
    intro other
    change other ∈ signature :: _ ↔ other ∈ cache.keys
    rw [List.mem_cons, List.mem_filter]
    by_cases same : other = signature
    · simpa [same] using member
    · simpa [same] using inv.keys other
  case compiled =>
    rw [compilations_append, noCompilation]
    exact inv.compiled

end Cache

theorem asSize_of_nonneg {depth : Int32} (nonneg : 0 ≤ depth.toInt) :
    (Cache.asSize depth : Int) = depth.toInt := by
  have below := depth.toInt_lt
  rw [Cache.asSize, Int.toNat_of_nonneg (Int.emod_nonneg _ (by decide)),
    Int.emod_eq_of_lt nonneg (by omega)]

theorem asSize_of_neg {depth : Int32} (neg : depth.toInt < 0) :
    1 < Cache.asSize depth := by
  have above := depth.le_toInt
  have wrapped : depth.toInt % 2 ^ 64 = depth.toInt + 2 ^ 64 := by
    rw [← Int.add_emod_right, Int.emod_eq_of_lt (by omega) (by omega)]
  rw [Cache.asSize, wrapped]
  omega

section Step

variable {past : List (Entry Exec)} {entry : Entry Exec}

/-- The outcome of a call on members that satisfy the invariant. -/
inductive Stepped (past : List (Entry Exec)) (entry : Entry Exec) : Prop where
  | hit (signature : String) (ng_exec : Exec)
      (isSignature : entry.input.signature = .ok signature)
      (found : entry.before.m_ng_exec_map.lookup signature = some ng_exec)
      (returned : entry.output = .returned ng_exec)
      (sameKeys : entry.after.keys = entry.before.keys)
  | early (error : Error) (failed : entry.output = .failed error)
      (notTranslated : ∀ signature, Misses entry signature →
        entry.input.translated ≠ .ok ())
      (notFound : ∀ signature ng_exec, entry.input.signature = .ok signature →
        entry.before.m_ng_exec_map.lookup signature ≠ some ng_exec)
      (same : entry.after = entry.before)
  | stuck (signature : String) (misses : Misses entry signature)
      (translated : entry.input.translated = .ok ())
      (undefined : entry.output = .undefined)
      (noRoom : Cache.asSize (depthOf entry) = 0 ∧
        entry.before.m_ng_exec_map.length = 0)
  | miss (signature : String) (misses : Misses entry signature)
      (translated : entry.input.translated = .ok ()) (roomy : Cache Exec)
      (room : { entry.before
          with m_function_cache_depth_in_items := depthOf entry }.makeRoom =
        some roomy)
      (outcome : (∃ error what, entry.input.compiled = .error what ∧
          entry.output = .failed error ∧ entry.after = roomy) ∨
        ∃ ng_exec, entry.input.compiled = .ok ng_exec ∧
        entry.output = .returned ng_exec ∧
          entry.after = roomy.store signature ng_exec)

theorem stepped_miss (inv : entry.before.Inv past) {signature : String}
    (misses : Misses entry signature)
    (step : entry.before.miss entry.input signature = (entry.after,
        entry.output)) :
    Stepped past entry ∧ entry.after.Inv (past ++ [entry]) := by
  unfold Cache.miss at step
  cases translated : entry.input.translated with
  | error error =>
      rw [translated] at step
      obtain ⟨same, failed⟩ := Prod.mk.inj step
      have notFound : ∀ other ng_exec, entry.input.signature = .ok other →
          entry.before.m_ng_exec_map.lookup other ≠ some ng_exec := by
        intro other ng_exec isOther
        obtain rfl := Except.ok.inj (misses.1.symm.trans isOther)
        simp [misses.2]
      refine ⟨.early error failed.symm (fun _ _ => by simp [translated])
        notFound same.symm, ?_⟩
      rw [← same]
      exact inv.skip fun _ => by simp [← failed]
  | ok _ =>
      rw [translated] at step
      dsimp only at step
      have depthInv := inv.setDepth (depthOf entry)
      cases room : { entry.before with
          m_function_cache_depth_in_items := depthOf entry }.makeRoom with
      | none =>
          unfold depthOf at room
          rw [room] at step
          obtain ⟨same, undefined⟩ := Prod.mk.inj step
          refine ⟨.stuck signature misses translated undefined.symm
            (depthInv.makeRoom_none.mp room), ?_⟩
          rw [← same]
          exact depthInv.skip fun _ => by simp [← undefined]
      | some roomy =>
          obtain ⟨roomyInv, made⟩ := depthInv.makeRoom room
          unfold depthOf at room
          rw [room] at step
          dsimp only at step
          cases compiled : entry.input.compiled with
          | error what =>
              rw [compiled] at step
              obtain ⟨same, failed⟩ := Prod.mk.inj step
              refine ⟨.miss signature misses translated roomy room
                (.inl ⟨_, what, compiled, failed.symm, same.symm⟩), ?_⟩
              rw [← same]
              exact roomyInv.skip fun _ => by simp [← failed]
          | ok ng_exec =>
              rw [compiled] at step
              obtain ⟨same, returned⟩ := Prod.mk.inj step
              refine ⟨.miss signature misses translated roomy room
                (.inr ⟨ng_exec, compiled, returned.symm, same.symm⟩), ?_⟩
              rw [← same]
              apply roomyInv.store _ misses returned.symm
              have missing : signature ∉ entry.before.keys :=
                lookup_eq_none.mp misses.2
              cases made with
              | inl unchanged =>
                  rw [unchanged.2]
                  exact missing
              | inr evicted =>
                  obtain ⟨_, _, _, back, _, keys, _⟩ := depthInv.evict evicted.2
                  exact fun member => missing ((keys signature).mp member).1

theorem stepped_hit (inv : entry.before.Inv past) {signature :
      String} {ng_exec : Exec}
    (isSignature : entry.input.signature = .ok signature)
    (found : entry.before.m_ng_exec_map.lookup signature = some ng_exec)
    (step : entry.before.hit signature ng_exec = (entry.after, entry.output)) :
    Stepped past entry ∧ entry.after.Inv (past ++ [entry]) := by
  have member : signature ∈ entry.before.keys := by
    by_contra missing
    rw [lookup_eq_none.mpr missing] at found
    simp at found
  have inLru := (inv.keys signature).mpr member
  unfold Cache.hit at step
  cases head : entry.before.m_lru.head? with
  | none => simp [List.head?_eq_none_iff.mp head] at inLru
  | some front =>
      rw [head] at step
      dsimp only at step
      have touched : ∀ returned : entry.output = .returned ng_exec, _ :=
        fun returned =>
        inv.touch isSignature found returned member
      split at step
      case isTrue apart =>
        obtain ⟨same, returned⟩ := Prod.mk.inj step
        refine ⟨.hit signature ng_exec isSignature found returned.symm
          (by rw [← same]; rfl), ?_⟩
        rw [← same]
        exact touched returned.symm
      case isFalse atFront =>
        obtain ⟨same, returned⟩ := Prod.mk.inj step
        refine ⟨.hit signature ng_exec isSignature found returned.symm
          (by rw [← same]), ?_⟩
        obtain ⟨rest, isLru⟩ := List.head?_eq_some_iff.mp head
        have frontSame : signature = front := not_not.mp atFront
        have unchanged :
            signature :: entry.before.m_lru.filter (· ≠ signature) =
            entry.before.m_lru := by
          have distinct := inv.ordered.nodup
          rw [isLru, ← frontSame] at distinct ⊢
          rw [List.filter_cons_of_neg (by simp), List.filter_eq_self.mpr]
          intro other isOther
          have apart : other ≠ signature := by
            intro again
            exact (List.nodup_cons.mp distinct).1 (again ▸ isOther)
          simpa using apart
        have whole := touched returned.symm
        rw [unchanged] at whole
        rw [← same]
        exact whole

theorem stepped (inv : entry.before.Inv past)
    (step :
      entry.before.GetExecutable entry.input = (entry.after, entry.output)) :
    Stepped past entry ∧ entry.after.Inv (past ++ [entry]) := by
  unfold Cache.GetExecutable at step
  split at step
  case h_1 error isError =>
    obtain ⟨same, failed⟩ := Prod.mk.inj step
    refine ⟨.early error failed.symm ?_ ?_ same.symm, ?_⟩
    · intro signature misses
      rw [misses.1] at isError
      simp at isError
    · intro signature ng_exec isSignature
      rw [isSignature] at isError
      simp at isError
    · rw [← same]
      exact inv.skip fun _ => by simp [← failed]
  case h_2 signature isSignature =>
    split at step
    case h_1 missing => exact stepped_miss inv ⟨isSignature, missing⟩ step
    case h_2 ng_exec found => exact stepped_hit inv isSignature found step

/-- The number of items that a successful miss leaves. -/
theorem length_store {cache roomy : Cache Exec} (inv : cache.Inv past)
    (room : cache.makeRoom = some roomy) {signature : String} {ng_exec : Exec}
    (missing : signature ∉ cache.keys) :
    ((roomy.store signature ng_exec).m_ng_exec_map.length : Int) =
      if Cache.asSize cache.m_function_cache_depth_in_items ≤
        cache.m_ng_exec_map.length then
        cache.m_ng_exec_map.length
      else
        cache.m_ng_exec_map.length + 1 := by
  have stored : ∀ other : Cache Exec, signature ∉ other.keys →
      (other.store signature ng_exec).m_ng_exec_map.length =
        other.m_ng_exec_map.length + 1 := by
    intro other notKey
    have others : other.m_ng_exec_map.filter (·.1 ≠ signature) =
        other.m_ng_exec_map := by
      apply List.filter_eq_self.mpr
      intro pair member
      have apart : pair.1 ≠ signature :=
        fun same => notKey (same ▸ List.mem_map_of_mem member)
      simpa using apart
    simp only [Cache.store, others, List.length_cons]
  cases (inv.makeRoom room).2 with
  | inl unchanged =>
      rw [if_neg (Nat.not_le.mpr unchanged.1), unchanged.2,
        stored cache missing]
  | inr evicted =>
      obtain ⟨_, _, fewer, back, _, keys, _⟩ := inv.evict evicted.2
      have notKey : signature ∉ roomy.keys :=
        fun member => missing ((keys signature).mp member).1
      rw [if_pos evicted.1, stored roomy notKey, fewer]

theorem depth_eq_zero_iff {depth : Int32} : Cache.asSize depth = 0 ↔
    depth.toInt = 0 := by
  by_cases neg : depth.toInt < 0
  · have big := asSize_of_neg neg
    omega
  · have nonneg : 0 ≤ depth.toInt := by omega
    have same := asSize_of_nonneg nonneg
    omega

theorem Misses.not_found {signature other : String} {ng_exec : Exec}
    (misses : Misses entry signature)
    (isSignature : entry.input.signature = .ok other)
    (found : entry.before.m_ng_exec_map.lookup other = some ng_exec) :
    False := by
  obtain rfl := Except.ok.inj (isSignature.symm.trans misses.1)
  rw [misses.2] at found
  exact absurd found (by simp)

theorem Misses.items (inv : entry.before.Inv past) {signature : String} {roomy :
      Cache Exec}
    {ng_exec : Exec} (misses : Misses entry signature)
    (room : { entry.before
        with m_function_cache_depth_in_items := depthOf entry }.makeRoom =
      some roomy) :
    ((roomy.store signature ng_exec).m_ng_exec_map.length : Int) =
      if Cache.asSize (depthOf entry) ≤ entry.before.m_ng_exec_map.length then
        entry.before.m_ng_exec_map.length
      else
        entry.before.m_ng_exec_map.length + 1 :=
  length_store (inv.setDepth (depthOf entry)) room (lookup_eq_none.mp misses.2)

theorem asSize_cases (depth : Int32) : depth.toInt < 0 ∧
    1 < Cache.asSize depth ∨
    0 ≤ depth.toInt ∧ (Cache.asSize depth : Int) = depth.toInt := by
  by_cases neg : depth.toInt < 0
  · exact .inl ⟨neg, asSize_of_neg neg⟩
  · exact .inr ⟨by omega, asSize_of_nonneg (by omega)⟩

/-- A call that does what it should had room. -/
theorem EntryCorrect.roomFor (inv : entry.before.Inv past)
    (step : entry.before.GetExecutable entry.input =
      (entry.after, entry.output))
    (correct : EntryCorrect past entry) : RoomFor entry := by
  have depthInv := inv.setDepth (depthOf entry)
  have depthCases := asSize_cases (depthOf entry)
  intro signature misses translated
  cases (stepped inv step).1 with
  | hit other ng_exec isSignature found _ _ =>
      exact (misses.not_found isSignature found).elim
  | early error failed notTranslated _ same =>
      exact absurd translated (notTranslated _ misses)
  | stuck other _ _ undefined _ => exact absurd undefined correct.defined
  | miss other otherMisses _ roomy room outcome =>
      obtain rfl := Except.ok.inj (otherMisses.1.symm.trans misses.1)
      constructor
      · intro empty zero
        have noRoom := depthInv.makeRoom_none.mpr ⟨depth_eq_zero_iff.mpr
          zero, empty⟩
        rw [noRoom] at room
        simp at room
      · intro ng_exec compiled
        cases outcome with
        | inl failed =>
            obtain ⟨_, _, isError, _⟩ := failed
            rw [compiled] at isError
            simp at isError
        | inr returned =>
            obtain ⟨stored, _, returned, same⟩ := returned
            have bound := correct.capacity other stored misses returned
            have left := @Misses.items _ _ _ inv _ _ stored misses room
            have notStuck : ¬ (Cache.asSize (depthOf entry) = 0 ∧
                entry.before.m_ng_exec_map.length = 0) := by
              intro stuck
              rw [depthInv.makeRoom_none.mpr stuck] at room
              simp at room
            rw [same, left] at bound
            split at bound <;> omega

/-- With room, nothing goes wrong. -/
theorem Stepped.defined (stepped :
      Stepped past entry) (roomFor : RoomFor entry) :
    entry.output ≠ .undefined := by
  intro undefined
  cases stepped with
  | hit _ _ _ _ returned _ => simp [undefined] at returned
  | early _ failed _ _ _ => simp [undefined] at failed
  | stuck signature misses translated _ noRoom =>
      exact (roomFor signature misses translated).1 noRoom.2
        (depth_eq_zero_iff.mp noRoom.1)
  | miss _ _ _ _ _ outcome =>
      cases outcome with
      | inl failed =>
          obtain ⟨_, _, _, failed, _⟩ := failed
          simp [undefined] at failed
      | inr returned =>
          obtain ⟨_, _, returned, _⟩ := returned
          simp [undefined] at returned

/-- What is found is returned. -/
theorem Stepped.returned (stepped : Stepped past entry) {signature :
      String} {ng_exec : Exec}
    (isSignature : entry.input.signature = .ok signature)
    (found : entry.before.m_ng_exec_map.lookup signature = some ng_exec) :
    entry.output = .returned ng_exec := by
  cases stepped with
  | hit other otherExec otherSignature otherFound returned _ =>
      obtain rfl := Except.ok.inj (isSignature.symm.trans otherSignature)
      rw [returned, Option.some.inj (found.symm.trans otherFound)]
  | early error failed _ notFound same =>
      exact absurd found (notFound signature ng_exec isSignature)
  | stuck other misses => exact (misses.not_found isSignature found).elim
  | miss other misses => exact (misses.not_found isSignature found).elim

/-- With room, the items do not exceed the depth. -/
theorem Stepped.capacity (stepped :
      Stepped past entry) (inv : entry.before.Inv past)
    (roomFor : RoomFor entry) {signature : String} {ng_exec : Exec}
    (misses : Misses entry signature)
    (returned : entry.output = .returned ng_exec) :
    (entry.after.m_ng_exec_map.length : Int) ≤ max (depthOf entry).toInt 1 := by
  have depthCases := asSize_cases (depthOf entry)
  cases stepped with
  | hit other _ isSignature found _ _ =>
      exact (misses.not_found isSignature found).elim
  | early _ failed _ _ _ => simp [returned] at failed
  | stuck _ _ _ undefined _ => simp [returned] at undefined
  | miss other otherMisses translated roomy room outcome =>
      cases outcome with
      | inl failed =>
          obtain ⟨_, _, _, failed, _⟩ := failed
          simp [returned] at failed
      | inr stored =>
          obtain ⟨storedExec, compiled, _, same⟩ := stored
          have fits := (roomFor other otherMisses translated).2
            storedExec compiled
          rw [same, otherMisses.items inv room]
          split <;> omega

/-- What making room takes out is what was used least recently. -/
theorem Cache.Inv.madeRoom (inv : entry.before.Inv past) {roomy : Cache Exec}
    (room : { entry.before
        with m_function_cache_depth_in_items := depthOf entry }.makeRoom =
      some roomy) {signature other : String}
    (member : signature ∈ entry.before.keys) (gone : signature ∉ roomy.keys)
    (isOther : other ∈ entry.before.keys) (apart : other ≠ signature) :
    MoreRecent (uses past) other signature := by
  have depthInv := inv.setDepth (depthOf entry)
  cases (depthInv.makeRoom room).2 with
  | inl unchanged =>
      rw [unchanged.2] at gone
      exact absurd member gone
  | inr evicted =>
      obtain ⟨_, _, _, back, _, keys, least⟩ := depthInv.evict evicted.2
      have isBack : signature = back := by
        by_contra stays
        exact gone ((keys signature).mpr ⟨member, stays⟩)
      rw [isBack] at apart ⊢
      exact least other isOther apart

theorem Stepped.evicted (stepped :
      Stepped past entry) (inv : entry.before.Inv past)
    (roomFor : RoomFor entry) {signature other : String}
    (member : signature ∈ entry.before.keys)
    (gone : signature ∉ entry.after.keys) (isOther : other ∈ entry.before.keys)
    (apart : other ≠ signature) : MoreRecent (uses past) other signature := by
  cases stepped with
  | hit _ _ _ _ _ sameKeys => exact absurd (sameKeys ▸ member) gone
  | early _ _ _ _ same => exact absurd (same ▸ member) gone
  | stuck stuckSignature misses translated _ noRoom =>
      exact absurd (depth_eq_zero_iff.mp noRoom.1)
        ((roomFor stuckSignature misses translated).1 noRoom.2)
  | miss missed misses _ roomy room outcome =>
      refine inv.madeRoom room member (fun kept => gone ?_) isOther apart
      cases outcome with
      | inl failed =>
          obtain ⟨_, _, _, _, same⟩ := failed
          rwa [same]
      | inr stored =>
          obtain ⟨_, _, _, same⟩ := stored
          rw [same]
          by_cases stores : signature = missed
          · rw [stores]
            exact List.mem_cons_self
          · apply List.mem_cons_of_mem
            rw [filter_keys]
            exact List.mem_filter.mpr ⟨kept, by simpa using stores⟩

/-- A call does what it should exactly if there is room for it. -/
theorem entryCorrect_iff (inv : entry.before.Inv past)
    (step :
      entry.before.GetExecutable entry.input = (entry.after, entry.output)) :
    EntryCorrect past entry ↔ RoomFor entry := by
  constructor
  · exact EntryCorrect.roomFor inv step
  · intro roomFor
    obtain ⟨stepped, afterInv⟩ := stepped inv step
    exact {
      defined := stepped.defined roomFor
      nodup := afterInv.ordered.nodup
      keys := afterInv.keys
      keysNodup := afterInv.keysNodup
      ordered := afterInv.ordered
      hit := fun signature ng_exec isSignature found =>
        ⟨stepped.returned isSignature found,
          inv.compiled signature ng_exec found⟩
      capacity := fun _ _ => stepped.capacity inv roomFor
      evicted := fun _ member gone _ =>
        stepped.evicted inv roomFor member gone }

end Step

/-- What the cache owes a run. -/
def RunCorrect (run : List (Entry Exec)) : Prop :=
  ∀ earlier entry later, run = earlier ++ entry :: later →
    EntryCorrect earlier entry

theorem inv_init (m_name : String) :
    (Cache.init m_name : Cache Exec).Inv [] where
  ordered := byRecency_nil
  keysNodup := List.nodup_nil
  keys := by simp [Cache.init, Cache.keys]
  compiled := by simp [Cache.init]

theorem inv_before {m_name : String} {calls : List (Call Exec)}
    {earlier later : List (Entry Exec)} {entry : Entry Exec}
    (split : (kernel Exec).trace (.init m_name) calls = earlier ++
      entry :: later) :
    entry.before.Inv earlier := by
  have keeps : ∀ past (state : Cache Exec) input, state.Inv past →
      ((kernel Exec).step state input).1.Inv (past ++ [⟨state, input,
        ((kernel Exec).step state
          input).2, ((kernel Exec).step state input).1⟩]) := by
    intro past state input inv
    exact (@stepped Exec past ⟨state, input, _, _⟩ inv rfl).2
  exact Machine.history keeps (inv_init m_name) split

/-- Every call of a run does what it should if and only if there is room for
every miss. -/
theorem runCorrect_iff (m_name : String) (calls : List (Call Exec)) :
    RunCorrect ((kernel Exec).trace (.init m_name) calls) ↔
      ∀ entry ∈ (kernel Exec).trace (.init m_name) calls, RoomFor entry := by
  have stepOf : ∀ {earlier entry later},
      (kernel Exec).trace (.init m_name) calls = earlier ++ entry :: later →
      entry.before.GetExecutable entry.input = (entry.after, entry.output) :=
    fun split =>
    Machine.trace_step
      (by rw [split]; exact List.mem_append_right _ List.mem_cons_self)
  constructor
  · intro correct entry member
    obtain ⟨earlier, later, split⟩ := List.append_of_mem member
    exact (entryCorrect_iff (inv_before split) (stepOf split)).mp
      (correct earlier entry later split)
  · intro roomFor earlier entry later split
    apply (entryCorrect_iff (inv_before split) (stepOf split)).mpr
    exact roomFor entry
      (by rw [split]; exact List.mem_append_right _ List.mem_cons_self)

/-- With depth zero the first miss evicts from an empty cache. -/
theorem runCorrect_zero_depth :
    ¬ RunCorrect ((kernel Nat).trace (.init "cluster")
      [⟨.ok "2,;/", some 0, .ok (), .ok 0⟩]) := by
  intro correct
  exact (correct [] _ [] rfl).defined rfl

end NGraphBridge.NGraphEncapsulateOp
