import CallerGraph.Graph.IndexedCalls
import CallerGraph.Proofs.CallCollection
import CallerGraph.Proofs.Index
import Mathlib.Data.Finset.Card

/-!
# The history of a set of calls

A set of calls with positions comes through any list of calls as the set without
them does.  What carries this is that the table is right: `IndexedCalls.Sound`
says that a pair has a position in the table exactly when the call there is the
one of the pair.  Then there is one call for each pair, and to settle all calls
with one that arrives is to settle the one at its position.

What a set holds in the end, and what it answers on the way, can be read off the
list: `calls_remember_history`.
-/

namespace CallerGraph

namespace CallSet

variable {calls others : List Call}

/-- Of several calls with different pairs, one that arrives settles only the one
with its pair. -/
theorem map_settle_eq_set {position : Nat} {stored arrived : Call}
    (hnodup : (calls.map Call.ends).Nodup) (hstored : calls[position]? = some stored)
    (hends : stored.ends = arrived.ends) :
    calls.map (settle · arrived) = calls.set position (settle stored arrived) := by
  obtain ⟨hbound, -⟩ := List.getElem?_eq_some_iff.1 hstored
  apply List.ext_getElem?
  intro place
  rw [List.getElem?_map, List.getElem?_set]
  by_cases hplace : position = place
  · subst hplace
    rw [if_pos rfl, if_pos hbound, hstored, Option.map_some]
  · rw [if_neg hplace]
    cases hother : calls[place]? with
    | none => rfl
    | some other =>
        have hne : other.ends ≠ arrived.ends := by
          intro heq
          have hsame : (calls.map Call.ends)[position]? = (calls.map Call.ends)[place]? := by
            rw [List.getElem?_map, List.getElem?_map, hstored, hother, Option.map_some,
              Option.map_some, hends, heq]
          exact hplace ((List.getElem?_inj (by simpa using hbound) hnodup).1 hsame)
        rw [Option.map_some, settle_of_ne hne]

/-- What is settled depends on which calls there are, and not on their order. -/
theorem settled_congr (hsame : ∀ call, call ∈ calls ↔ call ∈ others) {call : Call} :
    Settled calls call ↔ Settled others call := by
  simp only [Settled, hsame]

/-- The same calls, in another order or repeated, leave the same calls in another
order. -/
theorem calls_ofList_perm (hsame : ∀ call, call ∈ calls ↔ call ∈ others) :
    (ofList calls).calls.Perm (ofList others).calls := by
  rw [List.perm_ext_iff_of_nodup ((nodup_ends_ofList calls).of_map _)
    ((nodup_ends_ofList others).of_map _)]
  intro call
  rw [mem_ofList, mem_ofList, settled_congr hsame]

theorem isNew_ofList_iff {call : Call} :
    (ofList calls).isNew call = true ↔ call.ends ∉ calls.map Call.ends := by
  rw [isNew_iff, ends_ofList, List.mem_eraseDups]

theorem contains_ofList_iff {source target : NodeId} :
    (ofList calls).contains source target = true ↔ (source, target) ∈ calls.map Call.ends := by
  rw [contains_iff, ends_ofList, List.mem_eraseDups]

/-- There are as many calls as different pairs. -/
theorem size_ofList (calls : List Call) :
    (ofList calls).size = (calls.map Call.ends).toFinset.card := by
  have hpairs : ((ofList calls).calls.map Call.ends).toFinset =
      (calls.map Call.ends).toFinset := by
    ext pair
    rw [List.mem_toFinset, List.mem_toFinset, ends_ofList, List.mem_eraseDups]
  rw [← hpairs, List.toFinset_card_of_nodup (nodup_ends_ofList calls), List.length_map, size]

end CallSet

namespace IndexedCalls

variable {indexed : IndexedCalls}

/-- A pair has a position in the table exactly when the call there is its own. -/
def Sound (indexed : IndexedCalls) : Prop :=
  ∀ (pair : NodeId × NodeId) (position : Nat), indexed.positions[pair]? = some position ↔
    (indexed.calls.map Call.ends)[position]? = some pair

theorem sound_empty : empty.Sound := by
  intro pair position
  simp [empty, CallSet.empty]

/-- The table has the pairs of the calls. -/
theorem Sound.getElem?_positions_eq_none_iff (h : indexed.Sound) {pair : NodeId × NodeId} :
    indexed.positions[pair]? = none ↔ pair ∉ indexed.calls.map Call.ends := by
  rw [List.mem_iff_getElem?, not_exists, Option.eq_none_iff_forall_ne_some]
  exact forall_congr' fun position => not_congr (h pair position)

theorem Sound.knows_eq (h : indexed.Sound) (source target : NodeId) :
    indexed.knows source target = indexed.contains source target := by
  rw [Bool.eq_iff_iff, CallSet.contains_iff, knows, Std.HashMap.contains_eq_isSome_getElem?,
    Option.isSome_iff_ne_none, ne_eq, h.getElem?_positions_eq_none_iff, not_not]

/-- With a right table no pair comes twice: it would have two positions. -/
theorem Sound.nodup_ends (h : indexed.Sound) : (indexed.calls.map Call.ends).Nodup := by
  rw [List.nodup_iff_getElem?_ne_getElem?]
  intro position place hbefore hbound hsame
  have hplace := List.getElem?_eq_getElem hbound
  have hsecond := (h _ place).2 hplace
  rw [(h _ position).2 (hsame.trans hplace)] at hsecond
  exact hbefore.ne (Option.some.inj hsecond)

/-! ### One call more -/

/-- To settle the call at the position of a pair is to settle all calls. -/
theorem Sound.calls_settleAt (h : indexed.Sound) {position : Nat} {arrived : Call}
    (hposition : indexed.positions[arrived.ends]? = some position) :
    (indexed.settleAt position arrived).calls =
      indexed.calls.map (CallSet.settle · arrived) := by
  have hends := (h _ position).1 hposition
  rw [List.getElem?_map, Option.map_eq_some_iff] at hends
  obtain ⟨stored, hstored, hends⟩ := hends
  rw [CallSet.map_settle_eq_set h.nodup_ends hstored hends]
  unfold settleAt CallSet.settle
  simp only [hstored, hends, true_and]
  split
  case isTrue hsettles => simp_all
  case isFalse hstays =>
    obtain ⟨hbound, rfl⟩ := List.getElem?_eq_some_iff.1 hstored
    rw [if_neg (by simpa using hstays), List.set_getElem_self]

theorem positions_settleAt (indexed : IndexedCalls) (position : Nat) (arrived : Call) :
    (indexed.settleAt position arrived).positions = indexed.positions := by
  unfold settleAt
  split
  case h_1 => split <;> rfl
  case h_2 => rfl

theorem add_of_known {call : Call} {position : Nat}
    (hposition : indexed.positions[call.ends]? = some position) :
    indexed.add call = (false, indexed.settleAt position call) := by
  simp only [add, hposition]

theorem add_of_new {call : Call} (hposition : indexed.positions[call.ends]? = none) :
    indexed.add call = (true, { indexed with
      calls := indexed.calls ++ [call]
      positions := indexed.positions.insert call.ends indexed.calls.length }) := by
  simp only [add, hposition]

/-- **One call more** is answered and added as without the table, which is right
afterwards. -/
theorem Sound.add (h : indexed.Sound) (call : Call) :
    (indexed.add call).1 = indexed.isNew call ∧
      (indexed.add call).2.toCallSet = indexed.toCallSet.add call ∧
      (indexed.add call).2.Sound := by
  cases hposition : indexed.positions[call.ends]? with
  | some position =>
      have hold : ¬ indexed.isNew call = true := by
        rw [CallSet.isNew_iff, ← h.getElem?_positions_eq_none_iff, hposition]
        exact Option.some_ne_none position
      have hcalls := h.calls_settleAt hposition
      rw [add_of_known hposition, CallSet.add, if_neg hold]
      refine ⟨(Bool.eq_false_of_not_eq_true hold).symm, congrArg CallSet.mk hcalls, ?_⟩
      intro pair place
      rw [positions_settleAt, hcalls, List.map_map, h pair place]
      simp only [Function.comp_def, CallSet.ends_settle]
  | none =>
      have hfresh := h.getElem?_positions_eq_none_iff.1 hposition
      have hnew : indexed.isNew call = true := CallSet.isNew_iff.2 hfresh
      rw [add_of_new hposition, CallSet.add, if_pos hnew]
      refine ⟨hnew.symm, rfl, ?_⟩
      intro pair place
      rw [Std.HashMap.getElem?_insert, List.map_append, List.map_singleton,
        IndexedGraph.getElem?_append_singleton_eq_some_iff, List.length_map, ← h pair place]
      by_cases hpair : call.ends = pair
      · subst hpair
        simp [hposition, eq_comm]
      · simp [hpair]

/-! ### Any number of calls more -/

theorem addAll_append (indexed : IndexedCalls) (calls more : List Call) :
    indexed.addAll (calls ++ more) =
      ((indexed.addAll calls).1 ++ ((indexed.addAll calls).2.addAll more).1,
        ((indexed.addAll calls).2.addAll more).2) := by
  induction calls generalizing indexed with
  | nil => rfl
  | cons call calls ih => simp only [List.cons_append, addAll, ih]

theorem length_addAll (indexed : IndexedCalls) (calls : List Call) :
    (indexed.addAll calls).1.length = calls.length := by
  induction calls generalizing indexed with
  | nil => rfl
  | cons call calls ih => simp only [addAll, List.length_cons, ih]

theorem Sound.addAll (h : indexed.Sound) (calls : List Call) :
    (indexed.addAll calls).2.toCallSet = indexed.toCallSet.addAll calls ∧
      (indexed.addAll calls).2.Sound := by
  induction calls generalizing indexed with
  | nil => exact ⟨rfl, h⟩
  | cons call calls ih =>
      obtain ⟨-, hset, hsound⟩ := h.add call
      obtain ⟨hall, hlast⟩ := ih hsound
      refine ⟨?_, hlast⟩
      rw [hset] at hall
      exact hall

/-- What is answered to a call depends on the calls before it. -/
theorem getElem?_addAll_empty (earlier : List Call) (call : Call) (later : List Call) :
    (empty.addAll (earlier ++ call :: later)).1[earlier.length]? =
      some ((CallSet.ofList earlier).isNew call) := by
  obtain ⟨hset, hsound⟩ := sound_empty.addAll earlier
  obtain ⟨hanswer, -⟩ := hsound.add call
  rw [hset] at hanswer
  rw [addAll_append, ← length_addAll empty earlier, List.getElem?_append_right (le_refl _),
    Nat.sub_self]
  exact congrArg some hanswer

end IndexedCalls

/-- **A set of calls remembers what was added.**  Let calls be added to an empty
set, one after the other.

* A call is new exactly when its pair was not added before.
* A pair is there exactly when a call with it was added.
* There is one call for each pair, in the order in which the pairs first came, and
  it is recursive exactly when every call that was added with the pair is.
* There are as many calls as different pairs.
* The same calls in another order, or added more often, leave the same calls in
  another order.

With the table of positions the answers are the same, and at every moment the
table has the position of each pair and nothing else. -/
theorem calls_remember_history (history : List Call) :
    let kept := CallSet.ofList history
    let run := IndexedCalls.empty.addAll history
    (∀ earlier call later, history = earlier ++ call :: later →
      run.1[earlier.length]? = some ((CallSet.ofList earlier).isNew call) ∧
        ((CallSet.ofList earlier).isNew call = true ↔ call.ends ∉ earlier.map Call.ends)) ∧
      run.1.length = history.length ∧
      (∀ source target, kept.contains source target = true ↔
        (source, target) ∈ history.map Call.ends) ∧
      kept.calls.map Call.ends = (history.map Call.ends).eraseDups ∧
      (∀ call ∈ kept.calls, call.recursive = true ↔
        ∀ added ∈ history, added.ends = call.ends → added.recursive = true) ∧
      kept.size = (history.map Call.ends).toFinset.card ∧
      (∀ others : List Call, (∀ call, call ∈ others ↔ call ∈ history) →
        (CallSet.ofList others).calls.Perm kept.calls) ∧
      run.2.toCallSet = kept ∧
      run.2.Sound ∧
      ∀ source target, run.2.knows source target = kept.contains source target := by
  intro kept run
  obtain ⟨hset, hsound⟩ := IndexedCalls.sound_empty.addAll history
  refine ⟨?_, IndexedCalls.length_addAll _ _, fun _ _ => CallSet.contains_ofList_iff,
    CallSet.ends_ofList history, fun _ hcall => (CallSet.mem_ofList.1 hcall).2,
    CallSet.size_ofList history, fun _ => CallSet.calls_ofList_perm, hset, hsound, ?_⟩
  · intro earlier call later hhistory
    refine ⟨?_, CallSet.isNew_ofList_iff⟩
    change (IndexedCalls.empty.addAll history).1[earlier.length]? = _
    rw [hhistory]
    exact IndexedCalls.getElem?_addAll_empty earlier call later
  · intro source target
    rw [hsound.knows_eq, hset]
    rfl

end CallerGraph
