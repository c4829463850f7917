import CallerGraph.Proofs.ClassColors
import CallerGraph.Proofs.FarthestColor

/-!
# The order of a set does not show

A set has no order of its own, and the colours in use are kept in one.  A way of
listing sets that lists every member and nothing else leads to the same choices
as any other: a palette with tables goes in step with one that has the colours
of its classes in a list, `TabledPalette.Agrees`, and that one knows of no
listing.

So the colours of a registry are told by the words it draws from and by the
classes that it is asked for, one after the other.
-/

namespace CallerGraph

/-- A set is listed with every member and nothing else. -/
def Lists (listing : Std.HashSet String → List String) : Prop :=
  ∀ used text, text ∈ listing used ↔ text ∈ used

theorem lists_toList : Lists Std.HashSet.toList :=
  fun _ _ => Std.HashSet.mem_toList

namespace Palette

/-- The colours of classes, asked for one after the other. -/
def colors (palette : Palette) : List String → List String
  | [] => []
  | className :: classNames =>
      (palette.colorFor className).1 :: (palette.colorFor className).2.colors classNames

end Palette

namespace TabledPalette

variable {listing : Std.HashSet String → List String} {tabled : TabledPalette} {palette : Palette}

/-- Tables that have what a palette without them has. -/
structure Agrees (tabled : TabledPalette) (palette : Palette) : Prop where
  source : tabled.source = palette.source
  position : tabled.position = palette.position
  stalled : tabled.stalled = palette.stalled
  lookup? : ∀ className, tabled.lookup? className = palette.lookup? className
  used : ∀ color, color ∈ tabled.used ↔ color ∈ palette.inUse

theorem agrees_fresh (source : ColorSource) : (fresh source).Agrees (.fresh source) where
  source := rfl
  position := rfl
  stalled := rfl
  lookup? className := by simp [lookup?, fresh, Palette.lookup?, Palette.fresh]
  used color := by simp [fresh, Palette.inUse, Palette.fresh]

/-- **A search goes the same way** however the colours in use are listed. -/
theorem search_eq_search (hlists : Lists listing) {used : Std.HashSet String}
    {inUse : List String} (hused : ∀ color, color ∈ used ↔ color ∈ inUse) (words : Words)
    (tries position : Nat) :
    search listing words used tries position = Palette.search words inUse tries position := by
  have hchosen : ∀ position, chooseColor words position (listing used) =
      chooseColor words position inUse :=
    chooseColor_congr (fun text _ => (hlists used text).trans (hused text)) words
  have hcontains : ∀ color, used.contains color = inUse.contains color := fun color => by
    rw [Bool.eq_iff_iff, Std.HashSet.contains_iff_mem, List.contains_iff_mem, hused]
  induction tries generalizing position with
  | zero =>
      unfold search Palette.search
      simp only [hchosen, hcontains]
  | succ tries ih =>
      unfold search Palette.search
      simp only [hchosen, hcontains, ih]

/-- **One class more** has the same colour in both. -/
theorem Agrees.colorFor (h : tabled.Agrees palette) (hlists : Lists listing) (className : String) :
    (tabled.colorFor listing className).1 = (palette.colorFor className).1 ∧
      (tabled.colorFor listing className).2.Agrees (palette.colorFor className).2 := by
  cases hknown : palette.lookup? className with
  | some color =>
      rw [colorFor_of_known ((h.lookup? className).trans hknown), Palette.colorFor_of_known hknown]
      exact ⟨rfl, h⟩
  | none =>
      have hnext : tabled.next listing = palette.next := by
        rw [next, Palette.next, h.source, h.position]
        exact search_eq_search hlists h.used _ _ _
      have hnew := (h.lookup? className).trans hknown
      have hcolor : (tabled.colorFor listing className).1 = (palette.colorFor className).1 := by
        rw [colorFor_of_new hnew, Palette.colorFor_of_new hknown, hnext]
      have hlookup : ∀ other, (tabled.colorFor listing className).2.lookup? other =
          (palette.colorFor className).2.lookup? other := by
        intro other
        rw [lookup?_colorFor, h.lookup?, hcolor]
        exact ((palette.gives_colorFor className).colorOf other).symm
      rw [colorFor_of_new hnew, Palette.colorFor_of_new hknown, hnext] at hlookup ⊢
      refine ⟨rfl, h.source, rfl, ?_, hlookup, fun color => ?_⟩
      · rw [h.stalled]
      · simp only [Std.HashSet.mem_insert, beq_iff_eq, Palette.inUse, List.map_append,
          List.map_cons, List.map_nil, List.mem_append, List.mem_singleton, h.used]
        rw [or_comm, eq_comm]

/-- **Classes asked for one after the other** have the same colours in both. -/
theorem Agrees.colorsFor (h : tabled.Agrees palette) (hlists : Lists listing)
    (classNames : List String) :
    (tabled.colorsFor listing classNames).1 = palette.colors classNames ∧
      (tabled.colorsFor listing classNames).2.Agrees (palette.after classNames) := by
  induction classNames generalizing tabled palette with
  | nil => exact ⟨rfl, h⟩
  | cons className classNames ih =>
      obtain ⟨hcolor, hafter⟩ := h.colorFor hlists className
      obtain ⟨hcolors, hlater⟩ := ih hafter
      exact ⟨congrArg₂ List.cons hcolor hcolors, hlater⟩

end TabledPalette

/-! ### What a registry asks its palette -/

/-- The class whose colour a request needs. -/
def RegistryRequest.className? : RegistryRequest → Option String
  | .register label _ => some (LabelParts.ofLabel label.text).className
  | .colorFor className => some className
  | _ => none

namespace Registry

variable {registry : Registry} {history : RegistryHistory Registry}
  {requests : List RegistryRequest}

/-- The classes whose colours some requests need, with repetitions. -/
def askedClasses (requests : List RegistryRequest) : List String :=
  requests.filterMap RegistryRequest.className?

/-- **Registering a label asks for the colour of its class.**  A label that is
known needs nothing, and its class has a colour. -/
theorem palette_register (horderly : registry.Orderly) (hcolored : registry.Colored)
    (label : Label) (entry : Bool) :
    (registry.register label entry).2.palette =
      (registry.palette.colorFor (LabelParts.ofLabel label.text).className).2 := by
  cases hfound : registry.find? label with
  | none =>
      rw [register_of_find?_eq_none hfound]
      rfl
  | some node =>
      have hclass : node.className = (LabelParts.ofLabel label.text).className :=
        congrArg Node.className (horderly.described label node hfound)
      have hknown := hcolored.nodes node (mem_nodes_of_find? hfound)
      rw [hclass] at hknown
      rw [register_of_find?_eq_some hfound, Palette.colorFor_of_known hknown]
      rfl

/-- **One request** asks for the class it needs and for no other. -/
theorem palette_ask (horderly : history.registry.Orderly) (hcolored : history.registry.Colored)
    (request : RegistryRequest) :
    (history.ask actions request).registry.palette =
      history.registry.palette.after request.className?.toList := by
  cases request with
  | register label entry => exact palette_register horderly hcolored label entry
  | idOf label => rfl
  | node id => rfl
  | colorFor className => rfl

/-- **The palette of a registry** is that of the classes it was asked for. -/
theorem palette_of (source : ColorSource) (requests : List RegistryRequest) :
    (RegistryHistory.of actions (.fresh source) requests).registry.palette =
      (Palette.fresh source).after (askedClasses requests) := by
  induction requests using List.reverseRecOn with
  | nil => rfl
  | append_singleton requests request ih =>
      rw [RegistryHistory.of_concat, palette_ask (remembers_of source requests).orderly
        (showed_of source requests).colored, ih, ← Palette.after_append]
      congr 1
      rw [askedClasses, askedClasses, List.filterMap_append]
      cases request <;> rfl

/-- What a registry has shown, tables show that are asked for the same
classes. -/
theorem lookup?_of_shown {listing : Std.HashSet String → List String} (hlists : Lists listing)
    (source : ColorSource) {given : String × String}
    (hgiven : given ∈ shown (RegistryHistory.of actions (.fresh source) requests) requests) :
    ((TabledPalette.fresh source).colorsFor listing (askedClasses requests)).2.lookup? given.1 =
      some given.2 := by
  have hagrees := (TabledPalette.agrees_fresh source).colorsFor hlists (askedClasses requests)
  rw [hagrees.2.lookup?, ← palette_of]
  exact (showed_of source requests).lookup? given hgiven

end Registry

/-- **Colours do not depend on the order in which a set is listed.**  Whatever the
generator, its state and the texts in use:

* if none of them is a colour, three words are drawn and the colour that they
  make is the choice;
* otherwise one hundred and fifty words are drawn, which make fifty candidates.
  The least distance from a candidate to the colours in use is a number, and the
  choice is the first candidate for which it is largest;
* texts in use that have the same colours among them lead to the same choice and
  the same state, in whatever order they come and whatever else is among them;
* wherever the generator stands, it chooses as the words that it will answer say,
  and goes on behind the words that the choice took.

A palette with tables, which lists the colours in use whenever it draws, answers
the same colours under every listing and has drawn the same words.  The colours
that a registry shows are those that such a palette has when it is asked for the
classes of the requests in turn; so where the classes are the same, the colours
are. -/
theorem colors_ignore_listing_order :
    (∀ {γ : Type} (next : StateM γ UInt32) (state : γ) (inUse : List String),
      let known := inUse.filterMap Hsb.ofHex?
      let color := candidate (Words.drawn next state) 0
      let score := clearance known
      let drawn := (Generator.generate next inUse).run state
      (known = [] → drawn = ((color 0).toHex, Generator.advance next 3 state)) ∧
        (known ≠ [] →
          drawn.2 = Generator.advance next 150 state ∧
          (∀ i, IsNearest known (color i) (score (color i))) ∧
          ∃ i < 50, drawn.1 = (color i).toHex ∧
            (∀ j < i, score (color j) < score (color i)) ∧
            ∀ j < 50, ¬ score (color i) < score (color j)) ∧
        (∀ other : List String,
          (∀ text, (Hsb.ofHex? text).isSome → (text ∈ inUse ↔ text ∈ other)) →
            (Generator.generate next other).run state = drawn) ∧
        ∀ position,
          let chosen := chooseColor (Words.drawn next state) position inUse
          (Generator.generate next inUse).run (Generator.advance next position state) =
            (chosen.1, Generator.advance next chosen.2 state)) ∧
      (∀ (source : ColorSource) (listing : Std.HashSet String → List String), Lists listing →
        (∀ classNames,
          let asked := (TabledPalette.fresh source).colorsFor listing classNames
          asked.1 = (Palette.fresh source).colors classNames ∧
            asked.2.position = ((Palette.fresh source).after classNames).position) ∧
        ∀ requests,
          let history := RegistryHistory.of Registry.actions (.fresh source) requests
          let asked :=
            (TabledPalette.fresh source).colorsFor listing (Registry.askedClasses requests)
          ∀ given ∈ Registry.shown history requests, asked.2.lookup? given.1 = some given.2) ∧
      ∀ (source : ColorSource) (requests others : List RegistryRequest),
        Registry.askedClasses requests = Registry.askedClasses others →
        ∀ given ∈ Registry.shown (.of Registry.actions (.fresh source) requests) requests,
          ∀ other ∈ Registry.shown (.of Registry.actions (.fresh source) others) others,
            given.1 = other.1 → given.2 = other.2 := by
  refine ⟨?_, ?_, ?_⟩
  · intro γ next state inUse known color score drawn
    have hdrawn : drawn = _ := Generator.generate_run next state 0 inUse
    refine ⟨fun hnil => ?_, fun hsome => ?_, fun other hsame => ?_, fun position =>
      Generator.generate_run next state position inUse⟩
    · rw [hdrawn, chooseColor_of_eq_nil hnil]
      rfl
    · obtain ⟨hposition, i, hi, hchosen, hbefore, hlargest⟩ :=
        @exists_chooseColor (Words.drawn next state) 0 inUse hsome
      rw [hdrawn, hposition, hchosen]
      exact ⟨rfl, fun i => isNearest_clearance hsome _, i, hi, rfl, hbefore, hlargest⟩
    · have hother := Generator.generate_run next state 0 other
      rw [← chooseColor_congr hsame] at hother
      exact hother.trans hdrawn.symm
  · intro source listing hlists
    constructor
    · intro classNames
      obtain ⟨hcolors, hagrees⟩ := (TabledPalette.agrees_fresh source).colorsFor hlists classNames
      exact ⟨hcolors, hagrees.position⟩
    · intro requests history asked given hgiven
      exact Registry.lookup?_of_shown hlists source hgiven
  · intro source requests others hclasses given hgiven other hother hclass
    have hfirst := Registry.lookup?_of_shown lists_toList source hgiven
    have hsecond := Registry.lookup?_of_shown lists_toList source hother
    rw [hclasses, hclass, hsecond] at hfirst
    exact (Option.some.inj hfirst).symm

/-- A generator that counts up. -/
def counting : StateM UInt32 UInt32 :=
  fun word => (word, word + 0x01000000)

/-- Two ways of listing a colour in use, among other texts, and requests for two
classes. -/
theorem colors_ignore_listing_order_counting :
    let source := ColorSource.ofWords (Words.drawn counting 5)
    let asked := (TabledPalette.fresh source).colorsFor Std.HashSet.toList
      (Registry.askedClasses twoClassRequests)
    ((Generator.generate counting ["junk", "#3a88a8"]).run 5).2 =
        Generator.advance counting 150 5 ∧
      (Generator.generate counting ["#3a88a8", "#3a88a8", "#+"]).run 5 =
        (Generator.generate counting ["junk", "#3a88a8"]).run 5 ∧
      (Generator.generate counting ["junk"]).run 5 =
        ((candidate (Words.drawn counting 5) 0 0).toHex, Generator.advance counting 3 5) ∧
      asked.1 = (Palette.fresh source).colors ["A", "B", "B", "A"] := by
  intro source asked
  have hchosen := colors_ignore_listing_order.1 counting 5 ["junk", "#3a88a8"]
  have hfree := colors_ignore_listing_order.1 counting 5 ["junk"]
  have hpalette := colors_ignore_listing_order.2.1 source _ lists_toList
  have hcolor : (Hsb.ofHex? "#3a88a8").isSome := by decide +kernel
  have hjunk : Hsb.ofHex? "junk" = none := by decide +kernel
  have hplus : Hsb.ofHex? "#+" = none := by decide +kernel
  have hknown : ["junk", "#3a88a8"].filterMap Hsb.ofHex? ≠ [] := by
    obtain ⟨color, hread⟩ := Option.isSome_iff_exists.1 hcolor
    simp [hjunk, hread]
  refine ⟨(hchosen.2.1 hknown).1, hchosen.2.2.1 _ fun text htext => ?_, ?_, ?_⟩
  · have hne : text ≠ "junk" ∧ text ≠ "#+" := by
      constructor <;> rintro rfl
      · rw [hjunk] at htext
        cases htext
      · rw [hplus] at htext
        cases htext
    simp [hne]
  · exact hfree.1 (by simp [hjunk])
  · have hclasses : Registry.askedClasses twoClassRequests = ["A", "B", "B", "A"] := by rfl
    have hcolors := (hpalette.1 (Registry.askedClasses twoClassRequests)).1
    exact hcolors.trans (congrArg (Palette.fresh source).colors hclasses)

end CallerGraph
