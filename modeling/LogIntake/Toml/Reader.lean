import LogIntake.Toml.Literal

/-!
Reading a TOML document into its lines: headers, and keys with their values. All readers give what
they read and the characters behind it, or nothing when the text is not well formed.
-/
namespace LogIntake.Toml.Reader

def isBlank (c : Char) : Bool := c = ' ' || c = '\t'

def skipBlanks (cs : List Char) : List Char := cs.dropWhile isBlank

def isText (c : Char) : Bool := c = '\t' || (0x20 ≤ c.toNat && c.toNat ≠ 0x7F)

def skipFiller? : Bool → List Char → Option (List Char)
  | _, [] => some []
  | _, '\r' :: '\n' :: rest => skipFiller? false rest
  | inComment, c :: rest =>
    if c = '\n' then skipFiller? false rest
    else if inComment then if isText c then skipFiller? true rest else none
    else if isBlank c then skipFiller? false rest
    else if c = '#' then skipFiller? true rest
    else some (c :: rest)

/-- The end of a line: blanks, perhaps a comment, and a line end or the end of the text. -/
def endOfLine? (cs : List Char) : Option (List Char) :=
  let cs := skipBlanks cs
  let cs := match cs with
    | '#' :: rest => rest.dropWhile isText
    | _ => cs
  match cs with
  | [] => some []
  | '\n' :: rest => some rest
  | '\r' :: '\n' :: rest => some rest
  | _ => none

/-! ### Strings -/

def codePoint? (width : Nat) (cs : List Char) : Option (Char × List Char) :=
  let ds := cs.take width
  let n := ds.foldl (fun n c => 16 * n + hexDigitValue c) 0
  if ds.length = width && ds.all isHexDigit && (n < 0xD800 || (0xDFFF < n && n < 0x110000)) then
    some (Char.ofNat n, cs.drop width)
  else none

def escape? : List Char → Option (Char × List Char)
  | [] => none
  | c :: rest =>
    if c = '"' ∨ c = '\\' then some (c, rest)
    else if c = 'b' then some ('\x08', rest)
    else if c = 't' then some ('\t', rest)
    else if c = 'n' then some ('\n', rest)
    else if c = 'f' then some ('\x0c', rest)
    else if c = 'r' then some ('\r', rest)
    else if c = 'e' then some ('\x1b', rest)
    else if c = 'x' then codePoint? 2 rest
    else if c = 'u' then codePoint? 4 rest
    else if c = 'U' then codePoint? 8 rest
    else none

def basicBody? : Nat → List Char → List Char → Option (String × List Char)
  | 0, _, _ => none
  | _ + 1, _, [] => none
  | fuel + 1, read, c :: rest =>
    if c = '"' then some (String.ofList read.reverse, rest)
    else if c = '\\' then do
      let (d, rest) ← escape? rest
      basicBody? fuel (d :: read) rest
    else if isText c then basicBody? fuel (c :: read) rest
    else none

def literalBody? (read : List Char) : List Char → Option (String × List Char)
  | [] => none
  | c :: rest =>
    if c = '\'' then some (String.ofList read.reverse, rest)
    else if isText c then literalBody? (c :: read) rest
    else none

def skipLineEnd : List Char → List Char
  | '\n' :: rest => rest
  | '\r' :: '\n' :: rest => rest
  | cs => cs

def skipBroken : List Char → List Char
  | [] => []
  | '\r' :: '\n' :: rest => skipBroken rest
  | c :: rest => if isBlank c || c = '\n' then skipBroken rest else c :: rest

/-- At a run of quotes inside a string over several lines: up to two of them belong to the string
when it ends here. -/
def closing? (quote : Char) (read cs : List Char) : Option (String × List Char) :=
  let n := min 5 (cs.takeWhile (· = quote)).length
  if n < 3 then none
  else some (String.ofList (List.replicate (n - 3) quote ++ read).reverse, cs.drop n)

def multilineBasic? : Nat → List Char → List Char → Option (String × List Char)
  | 0, _, _ => none
  | _ + 1, _, [] => none
  | fuel + 1, read, '\r' :: '\n' :: rest => multilineBasic? fuel ('\n' :: '\r' :: read) rest
  | fuel + 1, read, c :: rest =>
    if c = '"' then
      match closing? '"' read (c :: rest) with
      | some done => some done
      | none => multilineBasic? fuel (c :: read) rest
    else if c = '\\' then
      match skipBlanks rest with
      | '\n' :: behind => multilineBasic? fuel read (skipBroken behind)
      | '\r' :: '\n' :: behind => multilineBasic? fuel read (skipBroken behind)
      | _ => do
        let (d, rest) ← escape? rest
        multilineBasic? fuel (d :: read) rest
    else if c = '\n' || isText c then multilineBasic? fuel (c :: read) rest
    else none

def multilineLiteral? : List Char → List Char → Option (String × List Char)
  | _, [] => none
  | read, '\r' :: '\n' :: rest => multilineLiteral? ('\n' :: '\r' :: read) rest
  | read, c :: rest =>
    if c = '\'' then
      match closing? '\'' read (c :: rest) with
      | some done => some done
      | none => multilineLiteral? (c :: read) rest
    else if c = '\n' || isText c then multilineLiteral? (c :: read) rest
    else none

def string? : List Char → Option (String × List Char)
  | '"' :: '"' :: '"' :: rest =>
    let body := skipLineEnd rest
    multilineBasic? (body.length + 1) [] body
  | '\'' :: '\'' :: '\'' :: rest => multilineLiteral? [] (skipLineEnd rest)
  | '"' :: rest => basicBody? (rest.length + 1) [] rest
  | '\'' :: rest => literalBody? [] rest
  | _ => none

/-! ### Keys -/

def isBareKeyChar (c : Char) : Bool := c.isAlphanum || c = '_' || c = '-'

def simpleKey? : List Char → Option (String × List Char)
  | '"' :: rest => basicBody? (rest.length + 1) [] rest
  | '\'' :: rest => literalBody? [] rest
  | cs =>
    let key := cs.takeWhile isBareKeyChar
    if key.isEmpty then none else some (String.ofList key, cs.dropWhile isBareKeyChar)

def maxKeys : Nat := 80

/-- A key or several joined by dots: the leading ones and the last one. -/
def keyPath? : Nat → List Char → Option ((List String × String) × List Char)
  | 0, _ => none
  | fuel + 1, cs => do
    let (key, rest) ← simpleKey? cs
    match skipBlanks rest with
    | '.' :: rest =>
      let ((path, last), rest) ← keyPath? fuel (skipBlanks rest)
      some ((key :: path, last), rest)
    | rest => some (([], key), rest)

/-! ### Values -/

structure Assignment where
  path : List String
  key : String
  value : Tree Literal
deriving Inhabited

/-- What a table holds while it is written: closed values, tables that later lines may extend, and
arrays whose last table they may extend. -/
inductive Draft where
  | value (t : Tree Literal)
  | table (dotted headed : Bool) (entries : List (String × Draft))
  | tables (elements : List (List (String × Draft)))
deriving Inhabited

/-- Changes the table at the end of a path. Tables on the way are made when they are missing; a
dotted key may not go through a table that has its own header. `change` is told whether the table
was made by a dotted key. -/
def atPath? (dotted : Bool) (change : Bool → List (String × Draft) → Option (List (String × Draft))) :
    List String → Bool → List (String × Draft) → Option (List (String × Draft))
  | [], isDotted, entries => change isDotted entries
  | key :: path, _, entries =>
    match Entries.get? key entries with
    | none => do
      let inner ← atPath? dotted change path dotted []
      some (Entries.put key (.table dotted false inner) entries)
    | some (.table isDotted headed inner) =>
      if dotted && headed then none
      else do
        let inner ← atPath? dotted change path isDotted inner
        some (Entries.put key (.table isDotted headed inner) entries)
    | some (.tables elements) =>
      match elements.reverse with
      | [] => none
      | last :: earlier => do
        let last ← atPath? dotted change path false last
        some (Entries.put key (.tables (earlier.reverse ++ [last])) entries)
    | some (.value _) => none

/-- Adds a key with its value. A table that a dotted key made is extended by dotted keys only, and
they extend no other. -/
def assign? (entries : List (String × Draft)) (a : Assignment) : Option (List (String × Draft)) :=
  atPath? (!a.path.isEmpty)
    (fun isDotted inner =>
      if isDotted == a.path.isEmpty || Entries.has a.key inner then none
      else some (Entries.put a.key (.value a.value) inner))
    a.path false entries

def assignAll? : List (String × Draft) → List Assignment → Option (List (String × Draft))
  | entries, [] => some entries
  | entries, a :: rest => do
    let entries ← assign? entries a
    assignAll? entries rest

mutual

def Draft.close : Draft → Tree Literal
  | .value t => t
  | .table _ _ entries => .table (closeEntries entries)
  | .tables elements => .array (closeElements elements)

def closeEntries : List (String × Draft) → Entries Literal
  | [] => []
  | (k, d) :: rest => (k, d.close) :: closeEntries rest

def closeElements : List (List (String × Draft)) → List (Tree Literal)
  | [] => []
  | entries :: rest => .table (closeEntries entries) :: closeElements rest

end

def endsWord (c : Char) : Bool :=
  isBlank c || c = '\n' || c = '\r' || c = ',' || c = ']' || c = '}' || c = '#'

/-- A word without quotes. A time may follow a date behind one space. -/
def bareWord (cs : List Char) : List Char × List Char :=
  let word := cs.takeWhile fun c => !endsWord c
  let rest := cs.dropWhile fun c => !endsWord c
  match rest with
  | ' ' :: c :: more =>
    if Date.isWritten word && c.isDigit then
      (word ++ ' ' :: (c :: more).takeWhile fun c => !endsWord c,
        (c :: more).dropWhile fun c => !endsWord c)
    else (word, rest)
  | _ => (word, rest)

def items? (value? : List Char → Option (Tree Literal × List Char)) :
    Nat → List (Tree Literal) → List Char → Option (List (Tree Literal) × List Char)
  | 0, _, _ => none
  | fuel + 1, read, cs => do
    let cs ← skipFiller? false cs
    match cs with
    | ']' :: rest => some (read.reverse, rest)
    | cs =>
      let (v, rest) ← value? cs
      let rest ← skipFiller? false rest
      match rest with
      | ',' :: rest => items? value? fuel (v :: read) rest
      | ']' :: rest => some ((v :: read).reverse, rest)
      | _ => none

def assignment? (value? : List Char → Option (Tree Literal × List Char)) (cs : List Char) :
    Option (Assignment × List Char) := do
  let ((path, key), rest) ← keyPath? maxKeys cs
  match rest with
  | '=' :: rest =>
    let (v, rest) ← value? (skipBlanks rest)
    some (⟨path, key, v⟩, rest)
  | _ => none

def members? (value? : List Char → Option (Tree Literal × List Char)) :
    Nat → List (String × Draft) → List Char → Option (List (String × Draft) × List Char)
  | 0, _, _ => none
  | fuel + 1, read, cs => do
    let cs ← skipFiller? false cs
    match cs with
    | '}' :: rest => some (read, rest)
    | cs =>
      let (a, rest) ← assignment? value? cs
      let read ← assign? read a
      let rest ← skipFiller? false rest
      match rest with
      | ',' :: rest => members? value? fuel read rest
      | '}' :: rest => some (read, rest)
      | _ => none

/-- A value in which arrays and tables nest at most `depth` deep. -/
def value? (depth : Nat) (cs : List Char) : Option (Tree Literal × List Char) :=
  match cs with
  | [] => none
  | '[' :: rest =>
    match depth with
    | 0 => none
    | depth + 1 => do
      let (items, rest) ← items? (value? depth) (rest.length + 1) [] rest
      some (.array items, rest)
  | '{' :: rest =>
    match depth with
    | 0 => none
    | depth + 1 => do
      let (entries, rest) ← members? (value? depth) (rest.length + 1) [] rest
      some (.table (closeEntries entries), rest)
  | c :: rest =>
    if c = '"' ∨ c = '\'' then do
      let (s, rest) ← string? (c :: rest)
      some (.leaf (.scalar (.string s)), rest)
    else do
      let (word, rest) := bareWord (c :: rest)
      let l ← literal? word
      some (.leaf l, rest)

def maxDepth : Nat := 80

/-! ### Documents -/

inductive Line where
  | assignment (a : Assignment)
  /-- The header of a table, or of one more table of an array. -/
  | header (element : Bool) (path : List String) (key : String)

def header? (cs : List Char) : Option (Line × List Char) := do
  let (element, cs) := match cs with
    | '[' :: rest => (true, rest)
    | _ => (false, cs)
  let ((path, key), rest) ← keyPath? maxKeys (skipBlanks cs)
  match element, rest with
  | false, ']' :: rest => some (.header false path key, rest)
  | true, ']' :: ']' :: rest => some (.header true path key, rest)
  | _, _ => none

def lines? : Nat → List Char → Option (List Line)
  | 0, _ => none
  | fuel + 1, cs => do
    let cs ← skipFiller? false cs
    match cs with
    | [] => some []
    | '[' :: rest =>
      let (line, rest) ← header? rest
      let rest ← endOfLine? rest
      let more ← lines? fuel rest
      some (line :: more)
    | cs =>
      let (a, rest) ← assignment? (value? maxDepth) cs
      let rest ← endOfLine? rest
      let more ← lines? fuel rest
      some (.assignment a :: more)

/-- Fills the table of a header. A table is opened by one header only, and not when a dotted key
made it; the tables that longer headers put into it stay. It then stands last. -/
def section? (element : Bool) (path : List String) (key : String) (body : List Assignment)
    (root : List (String × Draft)) : Option (List (String × Draft)) :=
  atPath? false
    (fun _ entries =>
      match element, Entries.get? key entries with
      | false, none => do
        let inner ← assignAll? [] body
        some (Entries.put key (.table false true inner) entries)
      | false, some (.table false false inner) => do
        let inner ← assignAll? inner body
        some (Entries.put key (.table false true inner) (Entries.erase key entries))
      | true, none => do
        let inner ← assignAll? [] body
        some (Entries.put key (.tables [inner]) entries)
      | true, some (.tables elements) => do
        let inner ← assignAll? [] body
        some (Entries.put key (.tables (elements ++ [inner])) entries)
      | _, _ => none)
    path false root

def splitBody : List Line → List Assignment × List Line
  | .assignment a :: rest =>
    let (body, more) := splitBody rest
    (a :: body, more)
  | lines => ([], lines)

theorem length_splitBody (lines : List Line) : (splitBody lines).2.length ≤ lines.length := by
  induction lines with
  | nil => simp [splitBody]
  | cons l rest ih =>
    cases l with
    | assignment a => simp only [splitBody, List.length_cons]; omega
    | header => simp [splitBody]

def sections? (root : List (String × Draft)) (lines : List Line) : Option (List (String × Draft)) :=
  match lines with
  | .header element path key :: rest =>
    match section? element path key (splitBody rest).1 root with
    | none => none
    | some root => sections? root (splitBody rest).2
  | .assignment _ :: _ => none
  | [] => some root
termination_by lines.length
decreasing_by
  have := length_splitBody rest
  simp only [List.length_cons]
  omega

/-- The table that a document describes. A byte order mark in front is passed over. -/
def document? (cs : List Char) : Option (Entries Literal) := do
  let cs := match cs with
    | '\uFEFF' :: rest => rest
    | _ => cs
  let lines ← lines? (cs.length + 1) cs
  let root ← assignAll? [] (splitBody lines).1
  let root ← sections? root (splitBody lines).2
  some (closeEntries root)

end LogIntake.Toml.Reader
