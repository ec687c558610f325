import NGraphBridge.NGraphEncapsulateOp.Cache

/-!
# Calls that fail

A call that fails may come after an eviction: room is made before the
compilation that decides whether there is anything to store.
-/

namespace NGraphBridge.NGraphEncapsulateOp

open TF

variable {Exec : Type} {past : List (Entry Exec)} {entry : Entry Exec}
  {depth : Int32}

/-- A call that fails leaves what is cached as it was. -/
def FailsAtomically (entry : Entry Exec) : Prop :=
  ∀ error, entry.output = .failed error →
    entry.after.m_ng_exec_map = entry.before.m_ng_exec_map ∧
    entry.after.m_lru = entry.before.m_lru

/-- Every call goes by this depth; the constructor sets 16. -/
def FixedDepth (depth : Int32) (calls : List (Call Exec)) : Prop :=
  ∀ call ∈ calls, call.cache_depth_specified.getD 16 = depth

/-- The condition on a call: a miss whose function does not compile finds fewer
items than the depth. -/
def RoomBeforeFailure (depth : Int32) (entry : Entry Exec) : Prop :=
  ∀ signature what, Misses entry signature → entry.input.translated = .ok () →
    entry.input.compiled = .error what →
    (entry.before.m_ng_exec_map.length : Int) < depth.toInt

/-- What the depth can be after calls with a fixed depth. -/
def DepthIn (depth : Int32) (cache : Cache Exec) : Prop :=
  cache.m_function_cache_depth_in_items = 16 ∨
    cache.m_function_cache_depth_in_items = depth

theorem depth_evict {cache next : Cache Exec}
    (success : cache.evict = some next) :
    next.m_function_cache_depth_in_items =
      cache.m_function_cache_depth_in_items := by
  unfold Cache.evict at success
  split at success
  case h_1 => exact absurd success (by simp)
  case h_2 =>
    obtain rfl := Option.some.inj success
    rfl

theorem depth_makeRoom {cache next : Cache Exec}
    (success : cache.makeRoom = some next) :
    next.m_function_cache_depth_in_items =
      cache.m_function_cache_depth_in_items := by
  unfold Cache.makeRoom at success
  split at success
  case isTrue => exact depth_evict success
  case isFalse =>
    obtain rfl := Option.some.inj success
    rfl

/-- A call keeps the depth or takes the one that is specified. -/
theorem depth_getExecutable (cache : Cache Exec) (call : Call Exec) :
    (cache.GetExecutable call).1.m_function_cache_depth_in_items =
        cache.m_function_cache_depth_in_items ∨
      (cache.GetExecutable call).1.m_function_cache_depth_in_items =
        call.cache_depth_specified.getD
          cache.m_function_cache_depth_in_items := by
  unfold Cache.GetExecutable
  split
  case h_1 => exact .inl rfl
  case h_2 signature _ =>
    split
    case h_1 =>
      unfold Cache.miss
      split
      case h_1 => exact .inl rfl
      case h_2 =>
        right
        dsimp only
        split
        case h_1 => rfl
        case h_2 roomy room =>
          have same := depth_makeRoom room
          split
          case h_1 => exact same
          case h_2 => exact same
    case h_2 =>
      left
      unfold Cache.hit
      split
      case h_1 => rfl
      case h_2 => split <;> rfl

theorem depthIn_step {cache : Cache Exec} {call : Call Exec}
    (depthIn : DepthIn depth cache)
    (fixed : call.cache_depth_specified.getD 16 = depth) :
    DepthIn depth (cache.GetExecutable call).1 := by
  cases depth_getExecutable cache call with
  | inl kept => rwa [DepthIn, kept]
  | inr specified =>
      rw [DepthIn, specified]
      cases isSpecified : call.cache_depth_specified with
      | none => exact depthIn
      | some found =>
          rw [isSpecified] at fixed
          exact .inr fixed

theorem depthOf_eq (depthIn : DepthIn depth entry.before)
    (fixed : entry.input.cache_depth_specified.getD 16 = depth) :
    depthOf entry = depth := by
  rw [depthOf]
  cases specified : entry.input.cache_depth_specified with
  | none =>
      rw [specified] at fixed
      have isDefault : (16 : Int32) = depth := fixed
      cases depthIn with
      | inl sixteen => exact sixteen.trans isDefault
      | inr same => exact same
  | some found =>
      rw [specified] at fixed
      exact fixed

theorem evict_ne {cache next : Cache Exec} (inv : cache.Inv past)
    (success : cache.evict = some next) :
    next.m_ng_exec_map ≠ cache.m_ng_exec_map := by
  obtain ⟨_, _, fewer, _⟩ := inv.evict success
  intro same
  rw [same] at fewer
  omega

/-- One call fails atomically exactly if its failure did not need room. -/
theorem failsAtomically_entry (positive : 0 < depth.toInt)
    (inv : entry.before.Inv past) (isDepth : depthOf entry = depth)
    (step : entry.before.GetExecutable entry.input =
      (entry.after, entry.output)) :
    FailsAtomically entry ↔ RoomBeforeFailure depth entry := by
  have size := asSize_of_nonneg (Int.le_of_lt positive)
  have depthInv := inv.setDepth (depthOf entry)
  cases (stepped inv step).1 with
  | hit signature ng_exec isSignature found returned _ =>
      constructor
      · intro _ other _ misses
        exact (misses.not_found isSignature found).elim
      · intro _ error failed
        exact absurd (returned.symm.trans failed) (by simp)
  | early error failed notTranslated _ same =>
      constructor
      · intro _ signature _ misses translated
        exact absurd translated (notTranslated signature misses)
      · intro _ _ _
        rw [same]
        exact ⟨rfl, rfl⟩
  | stuck signature misses translated undefined noRoom =>
      rw [isDepth, depth_eq_zero_iff] at noRoom
      omega
  | miss signature misses translated roomy room outcome =>
      cases outcome with
      | inr stored =>
          obtain ⟨ng_exec, compiled, returned, _⟩ := stored
          constructor
          · intro _ _ _ _ _ isError
            exact absurd (compiled.symm.trans isError) (by simp)
          · intro _ error failed
            exact absurd (returned.symm.trans failed) (by simp)
      | inl uncompiled =>
          obtain ⟨error, what, isError, failed, same⟩ := uncompiled
          cases (depthInv.makeRoom room).2 with
          | inl unchanged =>
              have fits : (entry.before.m_ng_exec_map.length : Int) <
                  depth.toInt := by
                have fewer := unchanged.1
                rw [isDepth] at fewer
                have fewer : entry.before.m_ng_exec_map.length <
                    Cache.asSize depth := fewer
                omega
              constructor
              · exact fun _ _ _ _ _ _ => fits
              · intro _ _ _
                rw [same, unchanged.2]
                exact ⟨rfl, rfl⟩
          | inr evicted =>
              have full : Cache.asSize depth ≤
                  entry.before.m_ng_exec_map.length :=
                isDepth ▸ evicted.1
              have gone := evict_ne depthInv evicted.2
              constructor
              · intro atomic
                have kept := (atomic error failed).1
                rw [same] at kept
                exact absurd kept gone
              · intro roomFirst
                have fits := roomFirst signature what misses translated isError
                omega

/-- With a fixed positive depth, every failing call of a run leaves the cache as
it was if and only if no function fails to compile while the cache is full. -/
theorem failsAtomically_iff (m_name : String) (positive : 0 < depth.toInt)
    {calls : List (Call Exec)} (fixed : FixedDepth depth calls) :
    (∀ entry ∈ (kernel Exec).trace (.init m_name) calls,
      FailsAtomically entry) ↔
      ∀ entry ∈ (kernel Exec).trace (.init m_name) calls,
        RoomBeforeFailure depth entry := by
  apply forall₂_congr
  intro entry member
  obtain ⟨earlier, later, split⟩ := List.append_of_mem member
  have step := Machine.trace_step member
  have initial : DepthIn depth (Cache.init m_name : Cache Exec) := .inl rfl
  have depthIn := Machine.before_of initial
    (fun _ call isCall inside => depthIn_step inside (fixed call isCall)) member
  have isDepth := depthOf_eq depthIn (fixed _ (Machine.input_mem member))
  exact failsAtomically_entry positive (inv_before split) isDepth step

/-- A kernel of depth one that holds an executable and cannot compile the next
function. -/
def uncompiledCalls : List (Call Nat) :=
  [⟨.ok "1,;/", some 1, .ok (), .ok 0⟩,
    ⟨.ok "2,;/", some 1, .ok (), .error "unsupported"⟩]

theorem fixedDepth_uncompiledCalls : FixedDepth 1 uncompiledCalls := by
  intro call member
  simp only [uncompiledCalls, List.mem_cons, List.not_mem_nil,
    or_false] at member
  cases member with
  | inl isFirst => rw [isFirst, Option.getD_some]
  | inr isSecond => rw [isSecond, Option.getD_some]

theorem failsAtomically_iff_uncompiledCalls :
    FixedDepth 1 uncompiledCalls ∧
      ((∀ entry ∈ (kernel Nat).trace (.init "cluster") uncompiledCalls,
          FailsAtomically entry) ↔
        ∀ entry ∈ (kernel Nat).trace (.init "cluster") uncompiledCalls,
          RoomBeforeFailure 1 entry) :=
  ⟨fixedDepth_uncompiledCalls,
    failsAtomically_iff "cluster" (by decide) fixedDepth_uncompiledCalls⟩

/-- The failed compilation costs the executable that was cached. -/
theorem not_failsAtomically_uncompiledCalls :
    FixedDepth 1 uncompiledCalls ∧
      ¬ ∀ entry ∈ (kernel Nat).trace (.init "cluster") uncompiledCalls,
        FailsAtomically entry := by
  refine ⟨fixedDepth_uncompiledCalls, fun atomic => ?_⟩
  have second := atomic _ (List.mem_cons_of_mem _ List.mem_cons_self)
  have kept := (second _ rfl).2
  exact absurd kept (by decide)

end NGraphBridge.NGraphEncapsulateOp
