/-!
Names of the query language: a letter or underscore, then letters, digits and underscores, all
ASCII.
-/

namespace GridQuery.Text

def isNameStart (c : Char) : Bool :=
  c = '_' || c.isAlpha

def isNameChar (c : Char) : Bool :=
  c = '_' || c.isAlphanum

def isName (text : String) : Bool :=
  match text.toList with
  | [] => false
  | c :: rest => isNameStart c && rest.all isNameChar

end GridQuery.Text
