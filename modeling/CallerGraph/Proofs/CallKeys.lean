import CallerGraph.Proofs.CallCollection
import CallerGraph.Proofs.RegistryHistory

/-!
# The keys of calls

The key of a call is one text: the identifier of the caller, an arrow, and the
identifier of the method that is called.  Identifiers that a registry gives are
words and numbers without a dash, so the first dash of a key is the one of its
arrow, and what stands on either side can be had back.

To keep one call for each key is then to keep one for each pair of methods,
whichever way the one call is chosen: the first that came, or a plain one before
a recursive one.  Keeping is stated for any way to tell calls apart, and two ways
that agree on the calls of a list keep the same.
-/

namespace CallerGraph

/-! ### What a key says -/

/-- The digits of an identifier hold no dash, and neither does the word before
them. -/
theorem NodeId.dash_not_mem_ofOrdinal (ordinal : Nat) :
    '-' ∉ (NodeId.ofOrdinal ordinal).text.toList := by
  intro hdash
  rw [NodeId.ofOrdinal, String.toList_append, List.mem_append] at hdash
  rcases hdash with hword | hdigit
  · revert hword
    decide
  · rw [Nat.repr, String.toList_ofList] at hdigit
    have hisDigit := Nat.isDigit_of_mem_toDigits (by decide) (by decide) hdigit
    revert hisDigit
    decide

/-- A text behind the first dash, and the one before it. -/
theorem eq_and_eq_of_append_dash {before after other rest : List Char} (hbefore : '-' ∉ before)
    (hother : '-' ∉ other) (h : before ++ '-' :: after = other ++ '-' :: rest) :
    before = other ∧ after = rest := by
  have htake : ∀ {text : List Char}, '-' ∉ text → ∀ behind : List Char,
      (text ++ '-' :: behind).takeWhile (· ≠ '-') = text := by
    intro text htext behind
    have hall : ∀ c ∈ text, decide (c ≠ '-') = true :=
      fun c hc => decide_eq_true (ne_of_mem_of_not_mem hc htext)
    rw [List.takeWhile_append_of_pos hall]
    simp
  have hfirst := congrArg (List.takeWhile (· ≠ '-')) h
  rw [htake hbefore, htake hother] at hfirst
  subst hfirst
  exact ⟨rfl, (List.cons.inj (List.append_cancel_left h)).2⟩

namespace Call

variable {call other : Call}

/-- **Keys tell pairs apart** as long as no caller has a dash. -/
theorem key_eq_iff (hcall : '-' ∉ call.source.text.toList)
    (hother : '-' ∉ other.source.text.toList) : call.key = other.key ↔ call.ends = other.ends := by
  constructor
  · intro hkey
    have htext := congrArg String.toList hkey
    simp only [key, String.toList_append, List.append_assoc] at htext
    obtain ⟨hsource, htarget⟩ := eq_and_eq_of_append_dash hcall hother htext
    have htarget := (List.cons.inj htarget).2
    exact Prod.ext (congrArg NodeId.mk (String.toList_injective hsource))
      (congrArg NodeId.mk (String.toList_injective htarget))
  · intro hends
    obtain ⟨hsource, htarget⟩ := Prod.mk.inj hends
    rw [key, key, hsource, htarget]

end Call

/-! ### Keeping one call for each key -/

/-- Two ways to compare that agree on the items of a list keep the same first
appearances. -/
theorem eraseDupsBy_congr {α : Type} {same alike : α → α → Bool} {items : List α}
    (h : ∀ item ∈ items, ∀ other ∈ items, same item other = alike item other) :
    items.eraseDupsBy same = items.eraseDupsBy alike := by
  match items with
  | [] => rfl
  | item :: items =>
      have hfilter : items.filter (fun other => same other item = false) =
          items.filter (fun other => alike other item = false) := by
        apply List.filter_congr
        intro other hother
        rw [h other (List.mem_cons_of_mem item hother) item List.mem_cons_self]
      have hkept : ∀ other ∈ items.filter (fun other => alike other item = false),
          other ∈ item :: items :=
        fun other hother => List.mem_cons_of_mem item (List.mem_filter.1 hother).1
      rw [List.eraseDupsBy_cons, List.eraseDupsBy_cons, hfilter,
        eraseDupsBy_congr fun first hfirst second hsecond =>
          h first (hkept first hfirst) second (hkept second hsecond)]
termination_by items.length
decreasing_by
  exact Nat.lt_succ_of_le (List.length_filter_le _ _)

namespace CallSet

variable {κ ι : Type} [DecidableEq κ] [DecidableEq ι] {set : CallSet}

/-- Adds a call to calls that a key tells apart.  Of two with one key a plain one
takes the place of a recursive one. -/
def addBy (key : Call → κ) (set : CallSet) (call : Call) : CallSet :=
  if key call ∈ set.calls.map key then
    ⟨set.calls.map fun stored =>
      if key stored = key call ∧ stored.recursive ∧ !call.recursive then call else stored⟩
  else ⟨set.calls ++ [call]⟩

/-- The calls of a list, one for each key. -/
def ofListBy (key : Call → κ) (calls : List Call) : CallSet :=
  calls.foldl (addBy key) empty

theorem ofListBy_concat (key : Call → κ) (calls : List Call) (call : Call) :
    ofListBy key (calls ++ [call]) = (ofListBy key calls).addBy key call := by
  rw [ofListBy, List.foldl_append, List.foldl_cons, List.foldl_nil, ofListBy]

/-- A set of calls tells them apart by their pairs. -/
theorem ofListBy_ends (calls : List Call) : ofListBy Call.ends calls = ofList calls := by
  have hadd : addBy Call.ends = add := by
    funext set call
    unfold addBy add
    by_cases hnew : set.isNew call = true
    · rw [if_pos hnew, if_neg (isNew_iff.1 hnew)]
    · rw [if_neg hnew, if_pos (not_not.1 fun hfresh => hnew (isNew_iff.2 hfresh))]
      rfl
  rw [ofListBy, hadd]
  rfl

theorem mem_of_mem_addBy {key : Call → κ} {arrived call : Call}
    (h : call ∈ (set.addBy key arrived).calls) : call ∈ set.calls ∨ call = arrived := by
  unfold addBy at h
  split at h
  case isTrue =>
    obtain ⟨stored, hstored, rfl⟩ := List.mem_map.1 h
    split
    case isTrue => exact .inr rfl
    case isFalse => exact .inl hstored
  case isFalse => simpa using h

/-- Nothing is kept that was not in the list. -/
theorem mem_of_mem_ofListBy {key : Call → κ} {calls : List Call} {call : Call}
    (h : call ∈ (ofListBy key calls).calls) : call ∈ calls := by
  induction calls using List.reverseRecOn with
  | nil => cases h
  | append_singleton calls arrived ih =>
      rw [ofListBy_concat] at h
      rw [List.mem_append, List.mem_singleton]
      exact (mem_of_mem_addBy h).imp_left ih

theorem addBy_congr {key : Call → κ} {mark : Call → ι} {call : Call}
    (h : ∀ stored ∈ set.calls, key stored = key call ↔ mark stored = mark call) :
    set.addBy key call = set.addBy mark call := by
  have hknown : key call ∈ set.calls.map key ↔ mark call ∈ set.calls.map mark := by
    rw [List.mem_map, List.mem_map]
    exact exists_congr fun stored => and_congr_right fun hstored => h stored hstored
  have hsettled : (set.calls.map fun stored =>
      if key stored = key call ∧ stored.recursive ∧ !call.recursive then call else stored) =
      set.calls.map fun stored =>
        if mark stored = mark call ∧ stored.recursive ∧ !call.recursive then call else stored := by
    apply List.map_congr_left
    intro stored hstored
    simp only [h stored hstored]
  unfold addBy
  rw [hsettled]
  simp only [hknown]

/-- **Keys that agree keep the same calls.** -/
theorem ofListBy_congr {key : Call → κ} {mark : Call → ι} {calls : List Call}
    (h : ∀ call ∈ calls, ∀ other ∈ calls, key call = key other ↔ mark call = mark other) :
    ofListBy key calls = ofListBy mark calls := by
  induction calls using List.reverseRecOn with
  | nil => rfl
  | append_singleton calls arrived ih =>
      have hearlier : ∀ call ∈ calls, call ∈ calls ++ [arrived] :=
        fun call hcall => List.mem_append_left [arrived] hcall
      have hsame := ih fun call hcall other hother =>
        h call (hearlier call hcall) other (hearlier other hother)
      rw [ofListBy_concat, ofListBy_concat, hsame]
      apply addBy_congr
      intro stored hstored
      exact h stored (hearlier stored (mem_of_mem_ofListBy hstored)) arrived
        (List.mem_append_right calls List.mem_cons_self)

end CallSet

/-! ### Calls between methods of a registry -/

/-- Does a call join two methods that a registry knows? -/
def Registry.Joins (registry : Registry) (call : Call) : Prop :=
  ∃ caller method, registry.idOf? caller = some call.source ∧
    registry.idOf? method = some call.target

/-- **Keys tell calls apart.**

* Numbered identifiers are the same when their numbers are.
* Calls between numbered identifiers have one key exactly when they have one
  caller and one method that is called, recursive or not.
* Let any requests be made of a registry, and let calls join methods that it then
  knows.  To keep one call for each key is to keep one for each pair of methods,
  be it the one that a set of calls keeps or the first that came. -/
theorem keys_tell_calls_apart (source : ColorSource) (requests : List RegistryRequest) :
    let registry := (RegistryHistory.of Registry.actions (.fresh source) requests).registry
    (∀ a b, NodeId.ofOrdinal a = .ofOrdinal b ↔ a = b) ∧
      (∀ a b c d recursive closing,
        (⟨.ofOrdinal a, .ofOrdinal b, recursive⟩ : Call).key =
            (⟨.ofOrdinal c, .ofOrdinal d, closing⟩ : Call).key ↔
          NodeId.ofOrdinal a = .ofOrdinal c ∧ NodeId.ofOrdinal b = .ofOrdinal d) ∧
      ∀ calls : List Call, (∀ call ∈ calls, registry.Joins call) →
        CallSet.ofListBy Call.key calls = CallSet.ofList calls ∧
          calls.eraseDupsBy (fun call other => call.key == other.key) =
            calls.eraseDupsBy (fun call other => call.ends == other.ends) := by
  intro registry
  have horderly : registry.Orderly := (Registry.remembers_of source requests).orderly
  have hdash : ∀ call, registry.Joins call → '-' ∉ call.source.text.toList := by
    intro call hjoins
    obtain ⟨caller, -, hsource, -⟩ := hjoins
    obtain ⟨position, -, hposition⟩ := horderly.exists_position hsource
    rw [hposition]
    exact NodeId.dash_not_mem_ofOrdinal _
  refine ⟨fun _ _ => NodeId.ofOrdinal_injective.eq_iff, fun a b c d recursive closing => ?_,
    fun calls hcalls => ?_⟩
  · refine Iff.trans (Call.key_eq_iff ?_ ?_) Prod.ext_iff
    · exact NodeId.dash_not_mem_ofOrdinal a
    · exact NodeId.dash_not_mem_ofOrdinal c
  · have hkeys : ∀ call ∈ calls, ∀ other ∈ calls, call.key = other.key ↔ call.ends = other.ends :=
      fun call hcall other hother =>
        Call.key_eq_iff (hdash call (hcalls call hcall)) (hdash other (hcalls other hother))
    refine ⟨(CallSet.ofListBy_congr hkeys).trans (CallSet.ofListBy_ends calls), ?_⟩
    apply eraseDupsBy_congr
    intro call hcall other hother
    rw [Bool.eq_iff_iff, beq_iff_eq, beq_iff_eq]
    exact hkeys call hcall other hother

/-- Two methods that call each other, the second call met twice. -/
def returnedCalls : List Call :=
  [⟨⟨"node2"⟩, ⟨"node1"⟩, true⟩, ⟨⟨"node1"⟩, ⟨"node2"⟩, false⟩, ⟨⟨"node2"⟩, ⟨"node1"⟩, false⟩]

theorem keys_tell_returnedCalls_apart :
    let registry := (RegistryHistory.of Registry.actions (.fresh (.ofWords (.scripted #[])))
      mixedRequests).registry
    (∀ call ∈ returnedCalls, registry.Joins call) ∧
      CallSet.ofListBy Call.key returnedCalls = CallSet.ofList returnedCalls ∧
      CallSet.ofList returnedCalls =
        ⟨[⟨⟨"node2"⟩, ⟨"node1"⟩, false⟩, ⟨⟨"node1"⟩, ⟨"node2"⟩, false⟩]⟩ := by
  intro registry
  have hremembers := Registry.remembers_of (.ofWords (.scripted #[])) mixedRequests
  have hlabels : registry.labels = [⟨"a"⟩, ⟨"b"⟩] := hremembers.labels.trans (by decide)
  have hfirst : registry.idOf? ⟨"a"⟩ = some (.ofOrdinal 1) :=
    hremembers.orderly.idOf?_eq_some_iff.2 (congrArg (·[0]?) hlabels)
  have hsecond : registry.idOf? ⟨"b"⟩ = some (.ofOrdinal 2) :=
    hremembers.orderly.idOf?_eq_some_iff.2 (congrArg (·[1]?) hlabels)
  have hjoins : ∀ call ∈ returnedCalls, registry.Joins call := by
    intro call hcall
    simp only [returnedCalls, List.mem_cons, List.not_mem_nil, or_false] at hcall
    rcases hcall with rfl | rfl | rfl
    · exact ⟨_, _, hsecond, hfirst⟩
    · exact ⟨_, _, hfirst, hsecond⟩
    · exact ⟨_, _, hsecond, hfirst⟩
  obtain ⟨-, -, hkept⟩ := keys_tell_calls_apart (.ofWords (.scripted #[])) mixedRequests
  exact ⟨hjoins, (hkept returnedCalls hjoins).1, by decide⟩

end CallerGraph
