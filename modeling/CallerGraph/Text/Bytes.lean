/-!
# Distances in bytes

A place in a text can be told by its distance from the start in bytes of
UTF-8. A character takes one to four bytes, so not every distance leads to
a place between two characters.

* `takeBytes?` and `dropBytes?` cut a text at a distance, and fail when it
  leads inside a character or beyond the end.
* Both parts together are the text (`takeBytes?_append_dropBytes?`), and
  the length of the first part of a text is a distance at which it can be
  cut (`takeBytes?_byteLength`, `dropBytes?_byteLength`).
-/

namespace CallerGraph.Text

/-- The number of bytes of a text. -/
def byteLength : List Char → Nat
  | [] => 0
  | c :: cs => c.utf8Size + byteLength cs

/-- The characters before a distance. -/
def takeBytes? : Nat → List Char → Option (List Char)
  | 0, _ => some []
  | _ + 1, [] => none
  | n + 1, c :: cs =>
      if c.utf8Size ≤ n + 1 then (takeBytes? (n + 1 - c.utf8Size) cs).map (c :: ·) else none

/-- The characters behind a distance. -/
def dropBytes? : Nat → List Char → Option (List Char)
  | 0, cs => some cs
  | _ + 1, [] => none
  | n + 1, c :: cs => if c.utf8Size ≤ n + 1 then dropBytes? (n + 1 - c.utf8Size) cs else none

/-- The characters between two distances. -/
def cutBytes? (start stop : Nat) (cs : List Char) : Option (List Char) :=
  (takeBytes? stop cs).bind (dropBytes? start)

/-- The two parts of a text that was cut are the text. -/
theorem takeBytes?_append_dropBytes? {n : Nat} {cs before behind : List Char}
    (first : takeBytes? n cs = some before) (second : dropBytes? n cs = some behind) :
    before ++ behind = cs := by
  induction cs generalizing n before with
  | nil =>
      cases n with
      | zero => simp_all [takeBytes?, dropBytes?]
      | succ n => simp [takeBytes?] at first
  | cons c cs ih =>
      cases n with
      | zero => simp_all [takeBytes?, dropBytes?]
      | succ n =>
          simp only [takeBytes?, dropBytes?] at first second
          split at first
          case isFalse => simp at first
          case isTrue fits =>
            simp only [fits, if_true] at second
            obtain ⟨rest, found, rfl⟩ := Option.map_eq_some_iff.1 first
            simp [ih found second]

/-- A text can be cut behind its first part, which gives this part. -/
theorem takeBytes?_byteLength (before behind : List Char) :
    takeBytes? (byteLength before) (before ++ behind) = some before := by
  induction before with
  | nil => simp [byteLength, takeBytes?]
  | cons c cs ih =>
      have positive := c.utf8Size_pos
      obtain ⟨n, size⟩ : ∃ n, c.utf8Size + byteLength cs = n + 1 :=
        ⟨c.utf8Size + byteLength cs - 1, by omega⟩
      have left : n + 1 - c.utf8Size = byteLength cs := by omega
      have fits : c.utf8Size ≤ n + 1 := by omega
      simp [byteLength, size, takeBytes?, fits, left, ih]

/-- A text can be cut behind its first part, which leaves the second. -/
theorem dropBytes?_byteLength (before behind : List Char) :
    dropBytes? (byteLength before) (before ++ behind) = some behind := by
  induction before with
  | nil => simp [byteLength, dropBytes?]
  | cons c cs ih =>
      have positive := c.utf8Size_pos
      obtain ⟨n, size⟩ : ∃ n, c.utf8Size + byteLength cs = n + 1 :=
        ⟨c.utf8Size + byteLength cs - 1, by omega⟩
      have left : n + 1 - c.utf8Size = byteLength cs := by omega
      have fits : c.utf8Size ≤ n + 1 := by omega
      simp [byteLength, size, dropBytes?, fits, left, ih]

end CallerGraph.Text
