import CallerGraph.Proofs.Traversal

/-!
# What an exploration finds

An exploration follows chains without repetition and looks at one of them at
a time.  What it has found at the end can nevertheless be said in terms of
all chains, repetitions allowed, since detours can be cut out of a chain.

* A method is found when some chain to it stays within the depth limit.
* A method is expanded when some chain to it stops short of the limit, and
  then each of its accepted callers is linked to it: by a plain call if the
  caller is missing from one of these chains, and by a recursive call, or
  under dropping by none, if it is on all of them.
-/

namespace CallerGraph

namespace CallTable

variable {table : CallTable} {options : ExploreOptions} {entries : List Label}
  {caller method label : Label}

/-- The chains on which exploring goes on, to `method` by way of `below`. -/
def Expands (table : CallTable) (options : ExploreOptions) (entries below : List Label)
    (method : Label) : Prop :=
  Chain (table.Accepts options.scope) entries (method :: below) ∧
    ∀ most ∈ options.maxDepth, below.length < most

/-- The chains that end in a call are the expanded ones without repetition
with an accepted caller in front. -/
theorem cons_mem_itinerary {below : List Label} :
    caller :: method :: below ∈ table.itinerary options.scope options.maxDepth entries ↔
      table.Accepts options.scope caller method ∧ table.Expands options entries below method ∧
        (method :: below).Nodup := by
  rw [mem_itinerary_iff]
  constructor
  · intro h
    obtain ⟨hchain, hnodup, hlimit⟩ := h
    exact ⟨hchain.head_calls, ⟨hchain.tail, hlimit⟩, hnodup⟩
  · intro h
    obtain ⟨hcall, ⟨hchain, hlimit⟩, hnodup⟩ := h
    exact ⟨hchain.call hcall, hnodup, hlimit⟩

/-- An expanded chain can be freed of its detours. -/
theorem Expands.exists_simple {below : List Label}
    (h : table.Expands options entries below method) :
    ∃ short, table.Expands options entries short method ∧ (method :: short).Nodup ∧
      method :: short ⊆ method :: below := by
  obtain ⟨hchain, hlimit⟩ := h
  obtain ⟨short, hshort, hnodup, hlength, hsub⟩ := hchain.exists_simple
  exact ⟨short, ⟨hshort, fun most hmost => hlength.trans_lt (hlimit most hmost)⟩, hnodup, hsub⟩

theorem mem_kept_itinerary {chain : List Label} :
    chain ∈ (table.itinerary options.scope options.maxDepth entries).filter
        options.cycles.keeps ↔
      chain ∈ table.itinerary options.scope options.maxDepth entries ∧
        (options.cycles = .mark ∨ closesCycle chain = false) := by
  simp [List.mem_filter, CyclePolicy.keeps]

theorem tidy_gathered (table : CallTable) (options : ExploreOptions) (entries : List Label) :
    (table.gathered options entries).Tidy entries :=
  (Draft.tidy_fresh entries options.colors).meetAll _

/-- **The methods that are found.**  Those to which some chain stays within
the limit. -/
theorem mem_labels_gathered :
    label ∈ (table.gathered options entries).registry.labels ↔
      ∃ below, Chain (table.Accepts options.scope) entries (label :: below) ∧
        ∀ most ∈ options.maxDepth, below.length ≤ most := by
  unfold gathered
  rw [Draft.mem_labels_meetAll]
  constructor
  · intro h
    obtain ⟨chain, hkept, hlabel⟩ | hnone := h
    · obtain ⟨hchain, -, hlimit⟩ := mem_itinerary_iff.1 (mem_kept_itinerary.1 hkept).1
      match chain with
      | [] => simp at hlabel
      | [entry] =>
          obtain rfl : label = entry := by simpa using hlabel
          exact ⟨[], hchain, hlimit⟩
      | caller :: method :: below =>
          have hends : label = caller ∨ label = method := by simpa using hlabel
          rcases hends with rfl | rfl
          · exact ⟨_, hchain, hlimit⟩
          · exact ⟨below, hchain.tail, fun most hmost => (Nat.lt_of_succ_le (hlimit most hmost)).le⟩
    · exact absurd hnone List.not_mem_nil
  · intro h
    obtain ⟨below, hchain, hlimit⟩ := h
    obtain ⟨short, hshort, hnodup, hlength, -⟩ := hchain.exists_simple
    have hnew : label ∉ short := (List.nodup_cons.1 hnodup).1
    refine Or.inl
      ⟨label :: short, mem_kept_itinerary.2 ⟨mem_itinerary_iff.2 ⟨hshort, ?_, ?_⟩, ?_⟩, ?_⟩
    · exact (List.nodup_cons.1 hnodup).2
    · exact fun most hmost => hlength.trans (hlimit most hmost)
    · exact Or.inr (closesCycle_eq_false_iff.2 hnew)
    · simp

/-- **The plain calls.**  An accepted caller of a method that is missing from
one of the chains on which the method is expanded. -/
theorem hasCall_false_gathered :
    (table.gathered options entries).HasCall caller method false ↔
      table.Accepts options.scope caller method ∧
        ∃ below, table.Expands options entries below method ∧ caller ∉ method :: below := by
  unfold gathered
  rw [Draft.hasCall_meetAll_fresh]
  constructor
  · intro h
    obtain ⟨-, hplain⟩ := h
    simp only [Bool.false_eq_true, false_iff, not_forall] at hplain
    obtain ⟨below, hkept, hopen⟩ := hplain
    obtain ⟨hcall, hexpands, -⟩ := cons_mem_itinerary.1 (mem_kept_itinerary.1 hkept).1
    exact ⟨hcall, below, hexpands, closesCycle_eq_false_iff.1 (Bool.eq_false_of_not_eq_true hopen)⟩
  · intro h
    obtain ⟨hcall, below, hexpands, hnew⟩ := h
    obtain ⟨short, hshort, hnodup, hsub⟩ := hexpands.exists_simple
    have hmissing : caller ∉ method :: short := fun hmem => hnew (hsub hmem)
    have hopen := closesCycle_eq_false_iff.2 hmissing
    have hkept := mem_kept_itinerary.2
      ⟨cons_mem_itinerary.2 ⟨hcall, hshort, hnodup⟩, Or.inr hopen⟩
    refine ⟨⟨short, hkept⟩, ?_⟩
    simp only [Bool.false_eq_true, false_iff]
    intro hall
    rw [hall short hkept] at hopen
    cases hopen

/-- **The recursive calls.**  Under marking, an accepted caller of a method
that is expanded and only on chains with the caller. -/
theorem hasCall_true_gathered (hcycles : options.cycles = .mark) :
    (table.gathered options entries).HasCall caller method true ↔
      table.Accepts options.scope caller method ∧
        (∃ below, table.Expands options entries below method) ∧
        ∀ below, table.Expands options entries below method → caller ∈ method :: below := by
  unfold gathered
  rw [Draft.hasCall_meetAll_fresh]
  constructor
  · intro h
    obtain ⟨⟨below, hkept⟩, hclosed⟩ := h
    obtain ⟨hcall, hexpands, -⟩ := cons_mem_itinerary.1 (mem_kept_itinerary.1 hkept).1
    refine ⟨hcall, ⟨below, hexpands⟩, fun other hother => ?_⟩
    obtain ⟨short, hshort, hnodup, hsub⟩ := hother.exists_simple
    have hmet := cons_mem_itinerary.2 ⟨hcall, hshort, hnodup⟩
    have hcloses := hclosed.1 rfl short (mem_kept_itinerary.2 ⟨hmet, Or.inl hcycles⟩)
    exact hsub (closesCycle_eq_true_iff.1 hcloses)
  · intro h
    obtain ⟨hcall, ⟨below, hexpands⟩, hall⟩ := h
    obtain ⟨short, hshort, hnodup, -⟩ := hexpands.exists_simple
    have hmet := cons_mem_itinerary.2 ⟨hcall, hshort, hnodup⟩
    refine ⟨⟨short, mem_kept_itinerary.2 ⟨hmet, Or.inl hcycles⟩⟩, iff_of_true rfl ?_⟩
    intro other hkept
    obtain ⟨-, hother, -⟩ := cons_mem_itinerary.1 (mem_kept_itinerary.1 hkept).1
    exact closesCycle_eq_true_iff.2 (hall other hother)

/-- Under dropping no call is recursive. -/
theorem not_hasCall_true_gathered (hcycles : options.cycles = .drop) :
    ¬ (table.gathered options entries).HasCall caller method true := by
  unfold gathered
  rw [Draft.hasCall_meetAll_fresh]
  intro h
  obtain ⟨⟨below, hkept⟩, hclosed⟩ := h
  have hcloses := hclosed.1 rfl below hkept
  obtain hmark | hopen := (mem_kept_itinerary.1 hkept).2
  · rw [hcycles] at hmark
    cases hmark
  · rw [hcloses] at hopen
    cases hopen

end CallTable

section Explore

variable {σ : Type} {resolver : Resolver σ} {table : CallTable}

/-- **Exactly these calls.**  An exploration of a source that always says the
same comes to its end with a plain call from each accepted caller to each
method of which some expanded chain lacks the caller, with a recursive call,
if they are marked, from each one that is on all expanded chains of a method
and there are some, and with no others; nor does any pair come twice. -/
theorem explore_calls_exact (hreads : resolver.Reads table) (options : ExploreOptions)
    (entries : List Label) {session : Session σ} (hquiet : session.cancelled = false) :
    ∃ draft, (explore resolver options entries session).1 = .ok draft ∧
      (∀ caller method, draft.HasCall caller method false ↔
        table.Accepts options.scope caller method ∧
          ∃ below, table.Expands options entries below method ∧ caller ∉ method :: below) ∧
      (options.cycles = .mark → ∀ caller method, draft.HasCall caller method true ↔
        table.Accepts options.scope caller method ∧
          (∃ below, table.Expands options entries below method) ∧
          ∀ below, table.Expands options entries below method → caller ∈ method :: below) ∧
      (options.cycles = .drop → ∀ caller method, ¬ draft.HasCall caller method true) ∧
      draft.Linked ∧
      (∀ label other id, draft.registry.idOf? label = some id →
        draft.registry.idOf? other = some id → label = other) ∧
      (draft.calls.calls.map Call.ends).Nodup := by
  refine ⟨table.gathered options entries, (explore_of_reads hreads options entries hquiet).1,
    ?_, ?_, ?_, ?_, ?_, ?_⟩
  · exact fun caller method => CallTable.hasCall_false_gathered
  · exact fun hcycles caller method => CallTable.hasCall_true_gathered hcycles
  · exact fun hcycles caller method => CallTable.not_hasCall_true_gathered hcycles
  · exact Draft.linked_meetAll_fresh
  · intro label other id hlabel hother
    exact (table.tidy_gathered options entries).orderly.idOf?_injective hlabel hother
  · exact Draft.nodup_ends_meetAll_fresh

/-- A method that calls itself and has two callers that call each other. -/
def crossedMap : CallMap where
  callers := [(⟨"a"⟩, [⟨"a"⟩, ⟨"b"⟩, ⟨"c"⟩]), (⟨"b"⟩, [⟨"c"⟩]), (⟨"c"⟩, [⟨"b"⟩])]
  origins := []

/-- Two hops from `a`, with cycles marked. -/
def crossedOptions : ExploreOptions :=
  ⟨.all, .mark, some 2, .ofWords (.scripted #[])⟩

/-- The call from `b` to `c` is plain although one of the chains to `c` has
`b` on it: another has not. -/
theorem explore_calls_exact_crossedMap :
    (crossedMap.resolver fun _ => false).Reads crossedMap.table ∧
      (Session.start 0 false).cancelled = false ∧
      ∃ draft, (explore (crossedMap.resolver fun _ => false) crossedOptions [⟨"a"⟩]
          (Session.start 0 false)).1 = .ok draft ∧
        draft.HasCall ⟨"a"⟩ ⟨"a"⟩ true ∧ draft.HasCall ⟨"b"⟩ ⟨"c"⟩ false := by
  have hreads : (crossedMap.resolver fun _ => false).Reads crossedMap.table :=
    crossedMap.reads_table fun _ => rfl
  have haccepts : ∀ caller method, caller ∈ crossedMap.callersOf method →
      crossedMap.table.Accepts crossedOptions.scope caller method := fun _ _ h => ⟨h, rfl⟩
  have hstart : crossedMap.table.Expands crossedOptions [⟨"a"⟩] [] ⟨"a"⟩ :=
    ⟨.entry List.mem_cons_self, by simp [crossedOptions]⟩
  have hnext : crossedMap.table.Expands crossedOptions [⟨"a"⟩] [⟨"a"⟩] ⟨"c"⟩ :=
    ⟨hstart.1.call (haccepts _ _ (by decide)), by simp [crossedOptions]⟩
  have hquiet : (Session.start 0 false).cancelled = false := rfl
  obtain ⟨draft, hrun, hplain, hmarked, -⟩ :=
    explore_calls_exact hreads crossedOptions [⟨"a"⟩] hquiet
  refine ⟨hreads, hquiet, draft, hrun, ?_, ?_⟩
  · refine (hmarked rfl _ _).2 ⟨haccepts _ _ (by decide), ⟨[], hstart⟩, ?_⟩
    exact fun below _ => List.mem_cons_self
  · exact (hplain _ _).2 ⟨haccepts _ _ (by decide), [⟨"a"⟩], hnext, by decide⟩

/-- **Exactly these methods.**  The exploration ends with one node for each
label to which some chain stays within the depth limit and with no others;
the entries are among them, and exactly they are marked as entries. -/
theorem explore_methods_exact (hreads : resolver.Reads table) (options : ExploreOptions)
    (entries : List Label) {session : Session σ} (hquiet : session.cancelled = false) :
    ∃ draft, (explore resolver options entries session).1 = .ok draft ∧
      draft.registry.labels.Nodup ∧
      (draft.registry.nodes.map Node.id).Nodup ∧
      (∀ label, label ∈ draft.registry.labels ↔
        ∃ below, Chain (table.Accepts options.scope) entries (label :: below) ∧
          ∀ most ∈ options.maxDepth, below.length ≤ most) ∧
      (∀ entry ∈ entries, entry ∈ draft.registry.labels) ∧
      (∀ label node, (label, node) ∈ draft.registry.entries →
        (node.isEntry = true ↔ label ∈ entries)) := by
  have htidy := table.tidy_gathered options entries
  refine ⟨table.gathered options entries, (explore_of_reads hreads options entries hquiet).1,
    htidy.orderly.labels_nodup, htidy.orderly.ids_nodup, ?_, ?_, ?_⟩
  · exact fun label => CallTable.mem_labels_gathered
  · intro entry hentry
    exact CallTable.mem_labels_gathered.2 ⟨[], .entry hentry, fun most _ => Nat.zero_le most⟩
  · intro label node hmem
    rw [htidy.flagged label node ((Registry.find?_eq_some_iff htidy.orderly.labels_nodup).2 hmem)]
    exact List.contains_iff_mem

/-- An entry that is met first as the caller of another entry is marked as
an entry all the same. -/
theorem explore_methods_exact_crossedMap :
    (crossedMap.resolver fun _ => false).Reads crossedMap.table ∧
      (Session.start 0 false).cancelled = false ∧
      ∃ draft, (explore (crossedMap.resolver fun _ => false) crossedOptions [⟨"a"⟩, ⟨"b"⟩]
          (Session.start 0 false)).1 = .ok draft ∧
        ⟨"c"⟩ ∈ draft.registry.labels ∧
        ∃ node, (⟨"b"⟩, node) ∈ draft.registry.entries ∧ node.isEntry = true := by
  have hreads : (crossedMap.resolver fun _ => false).Reads crossedMap.table :=
    crossedMap.reads_table fun _ => rfl
  have hquiet : (Session.start 0 false).cancelled = false := rfl
  obtain ⟨draft, hrun, -, -, hfound, hentries, hflags⟩ :=
    explore_methods_exact hreads crossedOptions [⟨"a"⟩, ⟨"b"⟩] hquiet
  have hcaller : crossedMap.table.Accepts crossedOptions.scope ⟨"c"⟩ ⟨"a"⟩ :=
    ⟨(by decide : (⟨"c"⟩ : Label) ∈ crossedMap.callersOf ⟨"a"⟩), rfl⟩
  have hstart : Chain (crossedMap.table.Accepts crossedOptions.scope) [⟨"a"⟩, ⟨"b"⟩] [⟨"a"⟩] :=
    .entry List.mem_cons_self
  refine ⟨hreads, hquiet, draft, hrun,
    (hfound _).2 ⟨_, hstart.call hcaller, by simp [crossedOptions]⟩, ?_⟩
  obtain ⟨⟨label, node⟩, hmem, rfl⟩ := List.mem_map.1 (hentries ⟨"b"⟩ (by decide))
  exact ⟨node, hmem, (hflags _ node hmem).2 (by decide)⟩

end Explore

end CallerGraph
