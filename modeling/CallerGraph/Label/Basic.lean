/-!
# Method labels

A method is known by its label, one line of text in the layout

    Class.method(parameters)  (package)

Two labels name the same method exactly when their texts are equal; a
label need not follow the layout at all. `Label.format` writes the layout
and `Label.anonymousClass` writes the class part of a method that belongs
to an anonymous class.
-/

namespace CallerGraph

/-- The text that identifies a method. -/
structure Label where
  text : String
deriving DecidableEq, Hashable, Repr, Inhabited

namespace Label

/-- The label of a method in the canonical layout, with two spaces before
the package. -/
def format (className methodName : String) (params : List String) (package : String) :
    Label :=
  ⟨className ++ "." ++ methodName ++ "(" ++ ", ".intercalate params ++ ")  (" ++ package ++ ")"⟩

/-- The class part for a method of an anonymous class, by the method and
the class around it. A method without a class keeps the word that leads
to the class. -/
def anonymousClass : Option String → Option String → String
  | some method, outer => "Anonymous in " ++ method ++ "() in " ++ outer.getD ""
  | none, some outer => "Anonymous in " ++ outer
  | none, none => "Anonymous"

/-- The labels in the order of their texts, code point by code point. -/
def sorted (labels : List Label) : List Label :=
  labels.mergeSort fun a b => a.text ≤ b.text

/-- The number of different labels. -/
def countDistinct (labels : List Label) : Nat :=
  labels.eraseDups.length

end Label

end CallerGraph
