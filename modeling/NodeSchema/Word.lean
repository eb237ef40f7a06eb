/-!
# Names and types of the generated header

A name is an ASCII identifier that the header can use : not a C++ keyword, and not
`std`, with which the header qualifies what it takes from the standard library. A type
is kept as written; it only has to be made of the characters of a qualified, possibly
parametrised name, such as `std::vector<expression>`.
-/

namespace NodeSchema

/-- An ASCII letter or an underscore : what a name starts with. -/
def isNameStart (c : Char) : Bool :=
  c.isAlpha || c = '_'

/-- An ASCII letter, a digit or an underscore : what a name goes on with. -/
def isNameChar (c : Char) : Bool :=
  c.isAlphanum || c = '_'

/-- The characters that divide the words of a type. -/
def isTypeMark (c : Char) : Bool :=
  c = '<' || c = '>' || c = ':'

/-- The characters that may stand in a type. -/
def isTypeChar (c : Char) : Bool :=
  isNameChar c || isTypeMark c

/-- An identifier : a name's first character, then name characters only. -/
def isIdentifier (s : String) : Bool :=
  match s.toList with
  | [] => false
  | c :: rest => isNameStart c && rest.all isNameChar

/-- A type : a name's first character, then type characters only. How the marks are
placed is not looked at. -/
def isTypeExpr (s : String) : Bool :=
  match s.toList with
  | [] => false
  | c :: rest => isNameStart c && rest.all isTypeChar

/-- The words of a type : its pieces between type marks. -/
def typeWords (type : String) : List String :=
  (type.toList.splitOnP isTypeMark).map String.ofList

/-- The words that the header cannot use as the name of a class or a member. -/
def reservedWords : List String :=
  ["alignas", "alignof", "and", "and_eq", "asm", "auto", "bitand", "bitor", "bool", "break",
   "case", "catch", "char", "char8_t", "char16_t", "char32_t", "class", "compl", "concept",
   "const", "consteval", "constexpr", "constinit", "const_cast", "continue", "co_await",
   "co_return", "co_yield", "decltype", "default", "delete", "do", "double", "dynamic_cast",
   "else", "enum", "explicit", "export", "extern", "false", "float", "for", "friend", "goto",
   "if", "inline", "int", "long", "mutable", "namespace", "new", "noexcept", "not", "not_eq",
   "nullptr", "operator", "or", "or_eq", "private", "protected", "public", "register",
   "reinterpret_cast", "requires", "return", "short", "signed", "sizeof", "static",
   "static_assert", "static_cast", "struct", "switch", "template", "this", "thread_local",
   "throw", "true", "try", "typedef", "typeid", "typename", "union", "unsigned", "using",
   "virtual", "void", "volatile", "wchar_t", "while", "xor", "xor_eq",
   "std"]

/-- A word that the header cannot use as a name. -/
def isReserved (s : String) : Bool :=
  reservedWords.contains s

/-- Every identifier can stand as a type. -/
theorem isTypeExpr_of_isIdentifier {s : String} (h : isIdentifier s = true) :
    isTypeExpr s = true := by
  unfold isIdentifier at h
  unfold isTypeExpr
  split at h
  · cases h
  · next c rest hs =>
    simp only [Bool.and_eq_true, List.all_eq_true] at h ⊢
    exact ⟨h.1, fun x hx => by simp [isTypeChar, h.2 x hx]⟩

end NodeSchema
