import Switchboard.Entry
import Switchboard.Text.Word

/-!
Slots: the members of a generated class that hold the handlers, one per entry. The name of a slot is
the type name in lower case followed by the hexadecimal digits of the identifier, so `TCPAnalyzer`
under `0x6` is kept in `tcpanalyzer6`. Two entries with different identifiers can still ask for the
same name (`A1` under `0x1` and `A` under `0x11`), and a name can be a word that the generated
language keeps for itself (`I` under `0xf` gives `if`).
-/

namespace Switchboard

structure SlotName where
  text : String
deriving DecidableEq, Hashable, Repr

namespace SlotName

def of (typeName : String) (identifier : Identifier) : SlotName :=
  ⟨Text.lowercase typeName ++ identifier.hex⟩

def ofEntry (entry : Entry) : SlotName :=
  of entry.typeName entry.identifier

def keywords : List String := [
  "alignas", "alignof", "asm", "auto", "bool", "break", "case", "catch", "char", "char8_t",
  "char16_t", "char32_t", "class", "co_await", "co_return", "co_yield", "concept", "const",
  "const_cast", "consteval", "constexpr", "constinit", "continue", "decltype", "default", "delete",
  "do", "double", "dynamic_cast", "else", "enum", "explicit", "export", "extern", "false", "float",
  "for", "friend", "goto", "if", "inline", "int", "long", "mutable", "namespace", "new", "noexcept",
  "nullptr", "operator", "private", "protected", "public", "register", "reinterpret_cast",
  "requires", "return", "short", "signed", "sizeof", "static", "static_assert", "static_cast",
  "struct", "switch", "template", "this", "thread_local", "throw", "true", "try", "typedef",
  "typeid", "typename", "union", "unsigned", "using", "virtual", "void", "volatile", "wchar_t",
  "while"]

/-- The operators of the generated language that are spelled as words. -/
def operatorWords : List String :=
  ["and", "and_eq", "bitand", "bitor", "compl", "not", "not_eq", "or", "or_eq", "xor", "xor_eq"]

/-- The words with a special meaning in some places. -/
def contextualWords : List String :=
  ["final", "import", "module", "override"]

/-- The member of table dispatchers that is not a slot. -/
def tableMember : String := "table"

def reservedWords : List String :=
  keywords ++ operatorWords ++ contextualWords ++ [tableMember]

def isReserved (name : SlotName) : Bool :=
  reservedWords.contains name.text

@[simp] theorem toList_of (typeName : String) (identifier : Identifier) :
    (of typeName identifier).text.toList =
      typeName.toList.map Char.toLower ++ Nat.toDigits 16 identifier.toNat := by
  simp [of, Identifier.hex]

end SlotName

/-- The place of one handler in a dispatcher. -/
structure Slot where
  identifier : Identifier
  typeName : String
  name : SlotName
deriving DecidableEq, Repr

def Slot.ofEntry (entry : Entry) : Slot :=
  ⟨entry.identifier, entry.typeName, SlotName.ofEntry entry⟩

@[simp] theorem Slot.ofEntry_identifier (entry : Entry) :
    (Slot.ofEntry entry).identifier = entry.identifier := rfl

end Switchboard
