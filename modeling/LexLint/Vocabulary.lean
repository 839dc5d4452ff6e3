import LexLint.Text.Split
import LexLint.Json.Basic

/-!
The vocabulary of the scripting language: keywords, operators, literal values, types and built-in
functions. Every check that knows a word knows it from here.
-/

namespace LexLint

/-- What a vocabulary word is. -/
inductive WordKind where
  | keyword
  | operator
  | value
  | builtin
  | type
  deriving DecidableEq, Repr

/-- Whether a word is followed by the marker `$`. -/
inductive Suffix where
  | none
  | required
  | optional
  deriving DecidableEq, Repr

/-- A vocabulary word with its explanation. -/
structure VocabularyEntry where
  name : String
  kind : WordKind
  detail : String
  suffix : Suffix
  usage : String
  deriving DecidableEq, Repr

namespace WordKind

def all : List WordKind := [.keyword, .operator, .value, .builtin, .type]

def text : WordKind → String
  | .keyword => "keyword"
  | .operator => "operator"
  | .value => "value"
  | .builtin => "builtin"
  | .type => "type"

def ofText? (s : String) : Option WordKind := all.find? (·.text == s)

/-- The kind that a value names. -/
def ofJson? : Json → Option WordKind
  | .str s => ofText? s
  | _ => Option.none

/-- The message for a value that names no kind, or that cannot even be quoted. -/
def unknownMessage (v : Json) : String :=
  match v.quote? with
  | some text => text ++ " is not a valid WordKind"
  | none => NumberFault.tooLong.message

theorem ofText?_text (k : WordKind) : ofText? k.text = some k := by
  cases k <;> decide

end WordKind

def Suffix.text : Suffix → String
  | .none => ""
  | .required => "$"
  | .optional => "$?"

namespace Vocabulary

def keywords : List VocabularyEntry :=
  [⟨"if", .keyword, "Conditional statement", .required, "if$ condition \x7b\n    # code\n\x7d"⟩,
   ⟨"else", .keyword, "Else clause", .optional,
    "if$ condition \x7b\n    # code\n\x7d else \x7b\n    # alternative\n\x7d"⟩,
   ⟨"elseif", .keyword, "Else if clause", .required,
    "if$ a \x7b\n    # code\n\x7d elseif$ b \x7b\n    # code\n\x7d"⟩,
   ⟨"loop", .keyword, "Loop statement", .required, "loop$ condition \x7b\n    # code\n\x7d"⟩,
   ⟨"while", .keyword, "Conditional loop statement", .required,
    "while$ condition \x7b\n    # code\n\x7d"⟩,
   ⟨"import", .keyword, "Import statement", .required, "import$ \"module_name\""⟩,
   ⟨"let", .keyword, "Variable declaration", .required, "let$ variable_name = value;"⟩,
   ⟨"func", .keyword, "Function declaration", .required,
    "func$ name(param1, param2) \x7b\n    # code\n\x7d"⟩,
   ⟨"class", .keyword, "Class declaration", .required,
    "class$ ClassName \x7b\n    # members\n\x7d"⟩]

def operators : List VocabularyEntry :=
  [⟨"and", .operator, "Logical AND", .none, ""⟩,
   ⟨"or", .operator, "Logical OR", .none, ""⟩,
   ⟨"not", .operator, "Logical NOT", .none, ""⟩]

def values : List VocabularyEntry :=
  [⟨"true", .value, "Boolean true", .none, ""⟩,
   ⟨"false", .value, "Boolean false", .none, ""⟩]

def types : List VocabularyEntry :=
  [⟨"dict", .type, "Dictionary type", .none, "let$ d = dict\x7bkey1: value1, key2: value2\x7d;"⟩,
   ⟨"stack", .type, "Stack type (LIFO)", .none, "let$ s = <stack>;"⟩,
   ⟨"queue", .type, "Queue type (FIFO)", .none, "let$ q = <queue>;"⟩,
   ⟨"linked", .type, "Linked list type", .none, "let$ l = <linked>;"⟩,
   ⟨"regex", .type, "Regular expression type", .none,
    "let$ pattern := <regex> \"pattern\"//flags;"⟩]

def builtins : List VocabularyEntry :=
  [⟨"print", .builtin, "Print to console", .none, "::print(value)"⟩,
   ⟨"input", .builtin, "Read a line of user input", .none, "::input(prompt)"⟩,
   ⟨"len", .builtin, "Get length of collection", .none, "::len(collection)"⟩,
   ⟨"append", .builtin, "Append to collection", .none, "::append(collection, element)"⟩,
   ⟨"prepend", .builtin, "Prepend to collection", .none, "::prepend(collection, element)"⟩,
   ⟨"pop", .builtin, "Remove and return last element", .none, "::pop(collection)"⟩,
   ⟨"insert", .builtin, "Insert element at position", .none,
    "::insert(collection, position, element)"⟩,
   ⟨"remove", .builtin, "Remove element", .none, "::remove(collection, element)"⟩,
   ⟨"pattern_match", .builtin, "Match pattern", .none, "::pattern_match(value, pattern)"⟩,
   ⟨"get", .builtin, "Get element by key", .none, "::get(dictionary, key)"⟩,
   ⟨"set", .builtin, "Set element by key", .none, "::set(dictionary, key, value)"⟩,
   ⟨"keys", .builtin, "Get dictionary keys", .none, "::keys(dictionary)"⟩,
   ⟨"values", .builtin, "Get dictionary values", .none, "::values(dictionary)"⟩,
   ⟨"push", .builtin, "Push to stack", .none, "::push(stack, element)"⟩,
   ⟨"peek", .builtin, "Peek at stack top", .none, "::peek(stack)"⟩,
   ⟨"size", .builtin, "Get collection size", .none, "::size(collection)"⟩,
   ⟨"empty", .builtin, "Check if collection is empty", .none, "::empty(collection)"⟩,
   ⟨"enqueue", .builtin, "Add to queue", .none, "::enqueue(queue, element)"⟩,
   ⟨"dequeue", .builtin, "Remove from queue", .none, "::dequeue(queue)"⟩,
   ⟨"front", .builtin, "Get front of queue", .none, "::front(queue)"⟩,
   ⟨"back", .builtin, "Get back of queue", .none, "::back(queue)"⟩,
   ⟨"isEmpty", .builtin, "Check if empty", .none, "::isEmpty(collection)"⟩,
   ⟨"qsize", .builtin, "Get queue size", .none, "::qsize(queue)"⟩,
   ⟨"addNode", .builtin, "Add node to linked list", .none, "::addNode(linkedlist, value)"⟩,
   ⟨"removeNode", .builtin, "Remove node from linked list", .none,
    "::removeNode(linkedlist, value)"⟩,
   ⟨"find", .builtin, "Find node in linked list", .none, "::find(linkedlist, value)"⟩,
   ⟨"head", .builtin, "Get first node of linked list", .none, "::head(linkedlist)"⟩,
   ⟨"tail", .builtin, "Get last node of linked list", .none, "::tail(linkedlist)"⟩,
   ⟨"lsize", .builtin, "Get linked list size", .none, "::lsize(linkedlist)"⟩,
   ⟨"ladd", .builtin, "Add value to linked list", .none, "::ladd(list, value)"⟩,
   ⟨"lremove", .builtin, "Remove first occurrence from linked list", .none,
    "::lremove(list, value)"⟩,
   ⟨"lget", .builtin, "Get linked list element at index", .none, "::lget(list, index)"⟩,
   ⟨"lisEmpty", .builtin, "Check if linked list is empty", .none, "::lisEmpty(list)"⟩,
   ⟨"rmatch", .builtin, "Test whether a regex matches", .none, "::rmatch(regex, text)"⟩,
   ⟨"rfind_all", .builtin, "Find all regex match positions", .none, "::rfind_all(regex, text)"⟩,
   ⟨"rreplace", .builtin, "Replace first regex match", .none,
    "::rreplace(regex, text, replacement)"⟩,
   ⟨"http_get", .builtin, "HTTP GET request", .none, "::http_get(url, [headers])"⟩,
   ⟨"http_post", .builtin, "HTTP POST request", .none, "::http_post(url, data, [headers])"⟩,
   ⟨"http_put", .builtin, "HTTP PUT request", .none, "::http_put(url, data, [headers])"⟩,
   ⟨"http_delete", .builtin, "HTTP DELETE request", .none, "::http_delete(url, [headers])"⟩,
   ⟨"fopen", .builtin, "Open a file", .none, "::fopen(filename, mode)"⟩,
   ⟨"fread", .builtin, "Read from a file", .none, "::fread(filename)"⟩,
   ⟨"fwrite", .builtin, "Write to a file", .none, "::fwrite(filename, content)"⟩,
   ⟨"fclose", .builtin, "Close a file", .none, "::fclose(filename)"⟩,
   ⟨"to_str", .builtin, "Convert an integer to a string", .none, "::to_str(integer)"⟩,
   ⟨"to_int", .builtin, "Convert a string to an integer", .none, "::to_int(string)"⟩]

/-- All words, in the order in which they are listed. -/
def all : List VocabularyEntry := keywords ++ operators ++ values ++ types ++ builtins

/-- The types that are written in angle brackets, in table order. -/
def compositeTypes : List String :=
  (types.map (·.name)).filter fun n => ["stack", "queue", "linked", "regex"].contains n

/-- The keywords that must carry the marker `$`. -/
def markedKeywords : List String :=
  (keywords.filter fun e => e.suffix == .required).map (·.name)

/-- The keywords of conditions and loops. -/
def controlKeywords : List String := ["if", "else", "elseif", "loop", "while"]

/-- The control keywords that take a body and always carry the marker. -/
def bodyKeywords : List String := controlKeywords.filter (· != "else")

/-- The words that open the header of a block. -/
def headerKeywords : List String := controlKeywords ++ ["func", "class"]

def builtinNames : List String := builtins.map (·.name)

/-- The names that no variable can have. -/
def reservedWords : List String := all.map (·.name)

end Vocabulary

namespace VocabularyEntry

/-- The word as it is written in a script. -/
def canonical (e : VocabularyEntry) : String :=
  if e.kind = .builtin then "::" ++ e.name
  else if e.suffix = .required then e.name ++ "$"
  else if Vocabulary.compositeTypes.contains e.name then "<" ++ e.name ++ ">"
  else e.name

end VocabularyEntry

namespace Vocabulary

/-- The text without the namespace mark of a built-in. -/
def withoutNamespace (s : List Char) : List Char :=
  match s with
  | ':' :: ':' :: rest => rest
  | _ => s

/-- The text without the angle brackets of a type. -/
def withoutAngles (s : List Char) : List Char :=
  if s.head? = some '<' ∧ s.getLast? = some '>' then trim (s.drop 1).dropLast else s

/-- The text without the marker of a keyword. -/
def withoutMarker (s : List Char) : List Char :=
  if s.getLast? = some '$' then s.dropLast else s

/-- The entry of a word, which may be decorated the way it is written in a script. -/
def lookup? (word : String) : Option VocabularyEntry :=
  let name := withoutMarker (withoutAngles (withoutNamespace (trim word.toList)))
  all.find? (·.name == String.ofList name)

/-- The words of one kind, or all. -/
def ofKind (kind : Option WordKind) : List VocabularyEntry :=
  match kind with
  | Option.none => all
  | some k => all.filter (·.kind == k)

end Vocabulary

end LexLint
