import CallerGraph.Graph.CallSet
import Mathlib.Data.List.Induction
import Mathlib.Data.List.Nodup

/-!
# What a set of calls holds

Calls are added one after the other, and a pair that comes again keeps one
call.  `mem_ofList` says what is there at the end without following the
order: a call is in the set of a list exactly when its pair occurs in the
list, and it is recursive exactly when every call of the list between these
two methods is.
-/

namespace CallerGraph

theorem Call.eq_of_ends {call other : Call} (hends : call.ends = other.ends)
    (hrecursive : call.recursive = other.recursive) : call = other := by
  cases call
  cases other
  simp_all [ends]

namespace CallSet

variable {set : CallSet}

theorem isNew_iff {call : Call} : set.isNew call = true ↔ call.ends ∉ set.calls.map Call.ends := by
  rw [isNew, Bool.not_eq_true', ← Bool.not_eq_true, contains_iff]
  rfl

/-- At most one call between any two methods: adding keeps it so. -/
theorem nodup_ends_add (hnodup : (set.calls.map Call.ends).Nodup) (call : Call) :
    ((set.add call).calls.map Call.ends).Nodup := by
  rw [ends_add]
  split
  case isTrue hnew =>
    exact List.nodup_append_comm.1 (hnodup.cons (isNew_iff.1 hnew))
  case isFalse => exact hnodup

theorem settle_of_ne {stored arrived : Call} (h : stored.ends ≠ arrived.ends) :
    settle stored arrived = stored := by
  rw [settle, if_neg fun hall => h hall.1]

/-- Of two calls between the same methods the one that stays is recursive
when both are. -/
theorem recursive_settle {stored arrived : Call} (h : stored.ends = arrived.ends) :
    (settle stored arrived).recursive = (stored.recursive && arrived.recursive) := by
  unfold settle
  cases hstored : stored.recursive <;> cases harrived : arrived.recursive <;>
    simp [h, hstored, harrived]

/-- Calls between other methods stay as they are. -/
theorem mem_add_of_ne {arrived call : Call} (hends : call.ends ≠ arrived.ends) :
    call ∈ (set.add arrived).calls ↔ call ∈ set.calls := by
  unfold add
  split
  case isTrue =>
    have hne : call ≠ arrived := fun heq => hends (heq ▸ rfl)
    simp [hne]
  case isFalse =>
    rw [List.mem_map]
    constructor
    · intro h
      obtain ⟨stored, hstored, rfl⟩ := h
      rw [ends_settle] at hends
      rwa [settle_of_ne hends]
    · exact fun hcall => ⟨call, hcall, settle_of_ne hends⟩

/-- A call between methods that no call joined is added as it is. -/
theorem mem_add_of_isNew {arrived call : Call} (hnew : set.isNew arrived = true)
    (hends : call.ends = arrived.ends) :
    call ∈ (set.add arrived).calls ↔ call.recursive = arrived.recursive := by
  rw [add, if_pos hnew, List.mem_append, List.mem_singleton]
  constructor
  · intro h
    rcases h with hcall | rfl
    · exact absurd (List.mem_map.2 ⟨call, hcall, hends⟩) (isNew_iff.1 hnew)
    · rfl
  · exact fun hrecursive => Or.inr (Call.eq_of_ends hends hrecursive)

/-- Of a call between methods that a call joined already one of the two
stays. -/
theorem mem_add_of_mem (hnodup : (set.calls.map Call.ends).Nodup) {known arrived call : Call}
    (hknown : known ∈ set.calls) (hsame : known.ends = arrived.ends)
    (hends : call.ends = arrived.ends) :
    call ∈ (set.add arrived).calls ↔
      call.recursive = (known.recursive && arrived.recursive) := by
  have hold : ¬ set.isNew arrived = true :=
    fun hnew => isNew_iff.1 hnew (List.mem_map.2 ⟨known, hknown, hsame⟩)
  rw [add, if_neg hold, List.mem_map, ← recursive_settle hsame]
  constructor
  · intro h
    obtain ⟨stored, hstored, rfl⟩ := h
    rw [ends_settle] at hends
    have honly : stored = known :=
      List.inj_on_of_nodup_map hnodup hstored hknown (hends.trans hsame.symm)
    rw [honly]
  · intro hrecursive
    refine ⟨known, hknown, Call.eq_of_ends ?_ hrecursive.symm⟩
    rw [ends_settle, hsame, hends]

/-- Between the methods of the new call there is afterwards one call,
recursive when the new one and the one that was there, if any, are. -/
theorem mem_add_of_eq (hnodup : (set.calls.map Call.ends).Nodup) {arrived call : Call}
    (hends : call.ends = arrived.ends) :
    call ∈ (set.add arrived).calls ↔
      (call.recursive = true ↔ arrived.recursive = true ∧
        ∀ stored ∈ set.calls, stored.ends = arrived.ends → stored.recursive = true) := by
  by_cases hnew : set.isNew arrived = true
  · have hall : ∀ stored ∈ set.calls, stored.ends = arrived.ends → stored.recursive = true :=
      fun stored hmem heq => absurd (List.mem_map.2 ⟨stored, hmem, heq⟩) (isNew_iff.1 hnew)
    rw [mem_add_of_isNew hnew hends, and_iff_left hall, Bool.eq_iff_iff]
  · obtain ⟨known, hknown, hsame⟩ :=
      List.mem_map.1 (not_not.1 fun h => hnew (isNew_iff.2 h))
    have hall : (∀ stored ∈ set.calls, stored.ends = arrived.ends → stored.recursive = true) ↔
        known.recursive = true := by
      constructor
      · exact fun h => h known hknown hsame
      · intro h stored hstored heq
        have honly : stored = known :=
          List.inj_on_of_nodup_map hnodup hstored hknown (heq.trans hsame.symm)
        rw [honly, h]
    rw [mem_add_of_mem hnodup hknown hsame hends, hall, Bool.eq_iff_iff, Bool.and_eq_true,
      and_comm]

theorem ofList_append_singleton (calls : List Call) (call : Call) :
    ofList (calls ++ [call]) = (ofList calls).add call := by
  simp [ofList, addAll]

theorem nodup_ends_ofList (calls : List Call) : ((ofList calls).calls.map Call.ends).Nodup := by
  induction calls using List.reverseRecOn with
  | nil => exact List.nodup_nil
  | append_singleton calls call ih =>
      rw [ofList_append_singleton]
      exact nodup_ends_add ih call

/-- A list in which no pair comes twice is kept as it is. -/
theorem calls_ofList_of_nodup {calls : List Call} (hnodup : (calls.map Call.ends).Nodup) :
    (ofList calls).calls = calls := by
  induction calls using List.reverseRecOn with
  | nil => rfl
  | append_singleton calls call ih =>
      rw [List.map_append, List.map_singleton, List.nodup_append_comm, List.singleton_append,
        List.nodup_cons] at hnodup
      have hbefore := ih hnodup.2
      have hnew : (ofList calls).isNew call = true := by
        rw [isNew_iff, hbefore]
        exact hnodup.1
      rw [ofList_append_singleton, add, if_pos hnew, hbefore]

/-- The pairs of a list, in the order in which they first came. -/
theorem ends_ofList (calls : List Call) :
    (ofList calls).calls.map Call.ends = (calls.map Call.ends).eraseDups := by
  induction calls using List.reverseRecOn with
  | nil => rfl
  | append_singleton calls call ih =>
      rw [ofList_append_singleton, ends_add, List.map_append, List.map_singleton,
        List.eraseDups_append, ih]
      by_cases hknown : call.ends ∈ calls.map Call.ends
      · have hold : ¬ (ofList calls).isNew call = true := by
          rw [isNew_iff, ih, List.mem_eraseDups, not_not]
          exact hknown
        rw [if_neg hold]
        simp [List.removeAll, List.mem_map.1 hknown]
      · have hnew : (ofList calls).isNew call = true := by
          rw [isNew_iff, ih, List.mem_eraseDups]
          exact hknown
        rw [if_pos hnew]
        simp [List.removeAll, List.mem_map.not.1 hknown, List.eraseDups_cons]

/-- The call that stays of a list of calls: its pair occurs, and it is
recursive only when every call of the pair is. -/
def Settled (calls : List Call) (call : Call) : Prop :=
  (∃ added ∈ calls, added.ends = call.ends) ∧
  (call.recursive = true ↔ ∀ added ∈ calls, added.ends = call.ends → added.recursive = true)

/-- Every pair that occurs has its call. -/
theorem exists_settled {calls : List Call} {added : Call} (hadded : added ∈ calls) :
    ∃ call, Settled calls call ∧ call.ends = added.ends := by
  classical
  let flag := decide (∀ other ∈ calls, other.ends = added.ends → other.recursive = true)
  exact ⟨⟨added.source, added.target, flag⟩, ⟨⟨added, hadded, rfl⟩, decide_eq_true_iff⟩, rfl⟩

/-- **The calls of a list.**  One for each pair that occurs, recursive only
when all between the pair are. -/
theorem mem_ofList {calls : List Call} {call : Call} :
    call ∈ (ofList calls).calls ↔ Settled calls call := by
  induction calls using List.reverseRecOn generalizing call with
  | nil => simp [ofList, addAll, empty, Settled]
  | append_singleton calls arrived ih =>
      rw [ofList_append_singleton]
      by_cases hends : call.ends = arrived.ends
      -- Whether all stored calls of the pair are recursive is decided by what came before.
      · have hbefore : (∀ stored ∈ (ofList calls).calls,
            stored.ends = arrived.ends → stored.recursive = true) ↔
            ∀ added ∈ calls, added.ends = arrived.ends → added.recursive = true := by
          constructor
          · intro h added hadded heq
            obtain ⟨stored, hstored, hpair⟩ := exists_settled hadded
            exact (hstored.2.1 (h stored (ih.2 hstored) (hpair.trans heq))) added hadded hpair.symm
          · intro h stored hstored heq
            exact (ih.1 hstored).2.2 fun added hadded hpair => h added hadded (hpair.trans heq)
        rw [mem_add_of_eq (nodup_ends_ofList calls) hends, hbefore]
        simp only [Settled, hends, List.mem_append, List.mem_singleton]
        grind
      · rw [mem_add_of_ne hends, ih]
        simp only [Settled, List.mem_append, List.mem_singleton]
        grind

end CallSet

end CallerGraph
