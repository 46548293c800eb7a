/-
The reserved words and the operators of C++20, and the classes of words
that tell declarations, types and statements apart.
-/
namespace FrontEnd.Word

-- ============================================================ keywords

/-- The reserved words that are not spellings of operators. -/
def keywords : List String := [
  "alignas", "alignof", "asm", "auto", "bool", "break", "case", "catch",
  "char", "char8_t", "char16_t", "char32_t", "class", "concept",
  "const", "consteval", "constexpr", "constinit", "const_cast",
  "continue", "co_await", "co_return", "co_yield", "decltype",
  "default", "delete", "do", "double", "dynamic_cast", "else", "enum",
  "explicit", "export", "extern", "false", "float", "for", "friend",
  "goto", "if", "inline", "int", "long", "mutable", "namespace", "new",
  "noexcept", "nullptr", "operator", "private", "protected", "public",
  "register", "reinterpret_cast", "requires", "return", "short",
  "signed", "sizeof", "static", "static_assert", "static_cast",
  "struct", "switch", "template", "this", "thread_local", "throw",
  "true", "try", "typedef", "typeid", "typename", "union", "unsigned",
  "using", "virtual", "void", "volatile", "wchar_t", "while"]

/-- Whether a word is reserved and no spelling of an operator. -/
def isKeyword (word : String) : Bool :=
  keywords.contains word

/-- The keywords with which a declaration inside a block can begin. -/
def declarationStarters : List String := [
  "alignas", "auto", "bool", "char", "char8_t", "char16_t", "char32_t",
  "class", "const", "consteval", "constexpr", "constinit", "decltype",
  "double", "enum", "explicit", "extern", "float", "friend", "inline",
  "int", "long", "mutable", "namespace", "register", "short", "signed",
  "static", "static_assert", "struct", "template", "thread_local",
  "typedef", "typename", "union", "unsigned", "using", "virtual",
  "void", "volatile", "wchar_t"]

/-- Whether a declaration inside a block can begin with the word. -/
def startsDeclaration (word : String) : Bool :=
  declarationStarters.contains word

/-- The keywords that name a type or a part of one; they can stand in a
cast and in front of its argument. -/
def typeWords : List String := [
  "auto", "bool", "char", "char8_t", "char16_t", "char32_t", "const",
  "decltype", "double", "float", "int", "long", "short", "signed",
  "typename", "unsigned", "void", "volatile", "wchar_t"]

/-- Whether the word names a type or a part of one. -/
def isType (word : String) : Bool :=
  typeWords.contains word

/-- The keywords that make sense inside a function body only. -/
def statementWords : List String := [
  "break", "case", "catch", "co_return", "continue", "do", "else",
  "for", "goto", "if", "return", "switch", "try", "while"]

/-- Whether the word makes sense inside a function body only. -/
def isStatement (word : String) : Bool :=
  statementWords.contains word

-- =========================================================== operators

/-- The operators written with symbols, longest first. -/
def operators : List String := [
  "<=>", "->*", "<<=", ">>=", "...", "::", "->", ".*", "++", "--", "<<",
  ">>", "<=", ">=", "==", "!=", "&&", "||", "+=", "-=", "*=", "/=",
  "%=", "&=", "|=", "^=", "##", "+", "-", "*", "/", "%", "^", "&", "|",
  "~", "!", "=", "<", ">", ".", "?", ":", "#"]

/-- The words that stand for operators, each with its operator. -/
def alternatives : List (String × String) := [
  ("and", "&&"), ("and_eq", "&="), ("bitand", "&"), ("bitor", "|"),
  ("compl", "~"), ("not", "!"), ("not_eq", "!="), ("or", "||"),
  ("or_eq", "|="), ("xor", "^"), ("xor_eq", "^=")]

/-- Whether the word stands for an operator. -/
def isAlternative (word : String) : Bool :=
  alternatives.any (·.1 == word)

/-- The operator that a spelling stands for. Whatever is no word of the
table stands for itself. -/
def canonical (spelling : String) : String :=
  (alternatives.lookup spelling).getD spelling

/-- The longest operator at the start of a text. -/
def longestOperator (cs : List Char) : Option String :=
  operators.find? fun op => op.toList.isPrefixOf cs

/-- The brackets and separators. They never combine with a character
that follows. -/
def punctuators : List Char := ['(', ')', '[', ']', '\x7b', '\x7d', ';', ',']

end FrontEnd.Word
