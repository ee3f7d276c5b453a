import GridQuery.Text.CaseTable

/-!
Lower and upper case of whole texts. A capital sigma at the end of a word has a small form of its
own; some capital forms are longer than the letter.
-/

namespace GridQuery.Text

def mapRun (runs : List CaseRun) (c : Char) : Char :=
  match runs.find? fun run =>
      run.first ≤ c.toNat && c.toNat ≤ run.last && (c.toNat - run.first) % run.step = 0 with
  | some run => Char.ofNat ((c.toNat : Int) + run.shift).toNat
  | none => c

def inRanges (ranges : List (Nat × Nat)) (c : Char) : Bool :=
  ranges.any fun range => range.1 ≤ c.toNat && c.toNat ≤ range.2

def isCaseIgnorable (c : Char) : Bool :=
  inRanges caseIgnorableRanges c

/-- Whether the first character that matters for case is a cased one. -/
def leadsCased (text : List Char) : Bool :=
  match text.dropWhile isCaseIgnorable with
  | [] => false
  | c :: _ => inRanges casedRanges c

def lowerChar (c : Char) : List Char :=
  if c = 'İ' then ['i', Char.ofNat 0x307] else [mapRun lowercaseRuns c]

/-- Lower case of a text of which `before` has been read, in reverse. -/
def lowerFrom (before : List Char) : List Char → List Char
  | [] => []
  | c :: rest =>
    let lowered :=
      if c = 'Σ' then [if leadsCased before && !leadsCased rest then 'ς' else 'σ']
      else lowerChar c
    lowered ++ lowerFrom (c :: before) rest

def upperChar (c : Char) : List Char :=
  match longUppercase.find? fun entry => entry.1 = c.toNat with
  | some entry => entry.2.map Char.ofNat
  | none => [mapRun uppercaseRuns c]

def lowercase (text : String) : String :=
  String.ofList (lowerFrom [] text.toList)

def uppercase (text : String) : String :=
  String.ofList (text.toList.flatMap upperChar)

end GridQuery.Text
