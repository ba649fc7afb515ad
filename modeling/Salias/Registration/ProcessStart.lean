import Mathlib.Data.Nat.Digits.Lemmas

/-
The start token of a process is read from its line in the process file system. The name of the process is its own
choice and may look like any other part of the line.
-/

namespace Salias.ProcessStart

def kDeadProcessStartToken : Nat := 2 ^ 64 - 1

/-- The buffer keeps one byte for the NUL behind the content. -/
def kContentSize : Nat := 4096

/-- `std::strrchr`: a string from the last occurrence of a character on. A string ends at its first NUL. -/
def strrchr (char : UInt8) : List UInt8 → Option (List UInt8)
  | [] => none
  | byte :: rest =>
      if byte = 0 then none
      else (strrchr char rest).or (if byte = char then some (byte :: rest) else none)

def skipSpaces (field : List UInt8) : List UInt8 := field.dropWhile fun byte => byte == ' '.toUInt8

def skipField (field : List UInt8) : List UInt8 := field.dropWhile fun byte => byte != 0 && byte != ' '.toUInt8

/-- The loop over the fields before the start time. -/
def skipFields : Nat → List UInt8 → List UInt8
  | 0, field => field
  | count + 1, field => skipFields count (skipField (skipSpaces field))

def isDigit (byte : UInt8) : Bool := '0'.toUInt8 ≤ byte && byte ≤ '9'.toUInt8

/-- `std::from_chars` for an unsigned number of 64 bits. -/
def fromChars (field : List UInt8) : Option Nat :=
  let digits := field.takeWhile isDigit
  let token := digits.foldl (fun value byte => 10 * value + (byte.toNat - '0'.toNat)) 0
  if digits.isEmpty ∨ 2 ^ 64 ≤ token then none else some token

def isDeadState (state : UInt8) : Bool :=
  state == 'Z'.toUInt8 || state == 'X'.toUInt8 || state == 'x'.toUInt8

/-- The token in the content of a line. A byte behind the content is the NUL of the buffer. -/
def startTokenOf (content : List UInt8) : Nat :=
  match strrchr ')'.toUInt8 content with
  | none => 0
  | some found =>
      let field := skipSpaces (found.drop 1)
      if isDeadState (field.headD 0) then kDeadProcessStartToken
      else (fromChars (skipSpaces (skipFields (22 - 3) field))).getD 0

def statPath (pid : UInt32) : String := "/proc/" ++ toString pid ++ "/stat"

/-- `process_start_token`, with the readable files of the system. -/
def processStartToken (files : String → Option (List UInt8)) (pid : UInt32) : Nat :=
  match files (statPath pid) with
  | none => 0
  | some file =>
      let content := file.take (kContentSize - 1)
      if content.isEmpty then 0 else startTokenOf content

/-- What a signal of number 0 tells about a process. -/
inductive Probe where
  | delivered
  | notPermitted
  | failed
  deriving DecidableEq

/-- `is_registered_process_alive`. -/
def isRegisteredProcessAlive (files : String → Option (List UInt8)) (kill : UInt32 → Probe) (pid : UInt32)
    (startToken : Nat) : Bool :=
  let currentToken := processStartToken files pid
  if pid = 0 then false
  else if currentToken = kDeadProcessStartToken then false
  else if startToken ≠ 0 ∧ currentToken ≠ 0 then currentToken == startToken
  else kill pid != .failed

/-- A field behind the name has no spaces, parentheses and NULs. -/
structure Field where
  text : List UInt8
  some : text ≠ []
  plain : ∀ byte ∈ text, byte ≠ 0 ∧ byte ≠ ' '.toUInt8 ∧ byte ≠ '('.toUInt8 ∧ byte ≠ ')'.toUInt8

/-- A line: the fields 4 to 21 stand between the state and the start time. -/
structure StatLine where
  pid : Field
  comm : List UInt8
  state : UInt8
  middle : List Field
  startTime : Field
  rest : List UInt8
  named : ∀ byte ∈ comm, byte ≠ 0
  proper : state ≠ 0 ∧ state ≠ ' '.toUInt8 ∧ state ≠ '('.toUInt8 ∧ state ≠ ')'.toUInt8
  count : middle.length = 18
  separated : ∀ byte ∈ rest.head?, byte = ' '.toUInt8 ∨ byte = '\n'.toUInt8
  later : ∀ byte ∈ rest, byte ≠ '('.toUInt8 ∧ byte ≠ ')'.toUInt8

namespace StatLine

variable (line : StatLine)

/-- The fields 4 to 22, each behind a space. -/
def fields : List UInt8 :=
  line.middle.flatMap (fun field => ' '.toUInt8 :: field.text) ++ ' '.toUInt8 :: line.startTime.text

/-- The line up to field 22. -/
def head : List UInt8 :=
  line.pid.text ++ ' '.toUInt8 :: '('.toUInt8 :: line.comm ++ ')'.toUInt8 :: ' '.toUInt8 :: line.state :: line.fields

def content : List UInt8 := line.head ++ line.rest

/-- Field 22 is the decimal of a number of 64 bits. -/
def Starts (value : Nat) : Prop :=
  (∀ byte ∈ line.startTime.text, isDigit byte = true) ∧
    Nat.ofDigits 10 (line.startTime.text.reverse.map fun byte => byte.toNat - '0'.toNat) = value ∧ value < 2 ^ 64

end StatLine

section Scan

theorem strrchr_eq_none {char : UInt8} {text : List UInt8} (absent : char ∉ text) : strrchr char text = none := by
  induction text with
  | nil => rfl
  | cons byte rest ih =>
      simp only [List.mem_cons, not_or] at absent
      rw [strrchr, ih absent.2, if_neg (Ne.symm absent.1)]
      simp

/-- The last occurrence stands behind a part without NULs and before a part without the character. -/
theorem strrchr_append {char : UInt8} {before after : List UInt8} (whole : ∀ byte ∈ before, byte ≠ 0)
    (proper : char ≠ 0) (last : char ∉ after) :
    strrchr char (before ++ char :: after) = some (char :: after) := by
  induction before with
  | nil => simp [strrchr, proper, strrchr_eq_none last]
  | cons byte rest ih =>
      have found := ih fun other member => whole other (List.mem_cons_of_mem _ member)
      rw [List.cons_append, strrchr, found, if_neg (whole byte List.mem_cons_self)]
      rfl

/-- A scan stops at the first byte that it does not skip. -/
theorem dropWhile_append_cons {skips : UInt8 → Bool} {text : List UInt8} {stop : UInt8} {rest : List UInt8}
    (skipped : ∀ byte ∈ text, skips byte = true) (stops : skips stop = false) :
    (text ++ stop :: rest).dropWhile skips = stop :: rest := by
  induction text with
  | nil => simp [stops]
  | cons byte rest ih =>
      rw [List.cons_append, List.dropWhile_cons, if_pos (skipped byte List.mem_cons_self)]
      exact ih fun other member => skipped other (List.mem_cons_of_mem _ member)

theorem skipSpaces_text {text rest : List UInt8} (some : text ≠ []) (plain : ∀ byte ∈ text, byte ≠ ' '.toUInt8) :
    skipSpaces (' '.toUInt8 :: text ++ rest) = text ++ rest := by
  obtain ⟨first, others, rfl⟩ := List.exists_cons_of_ne_nil some
  have begins := plain first List.mem_cons_self
  simp [skipSpaces, begins]

theorem skipField_text {text rest : List UInt8} (plain : ∀ byte ∈ text, byte ≠ 0 ∧ byte ≠ ' '.toUInt8) :
    skipField (text ++ ' '.toUInt8 :: rest) = ' '.toUInt8 :: rest := by
  refine dropWhile_append_cons (fun byte member => ?_) (by decide)
  obtain ⟨proper, solid⟩ := plain byte member
  simp [proper, solid]

/-- The loop passes one field in each round. -/
theorem skipFields_flatMap (fields : List Field) (rest : List UInt8) :
    skipFields fields.length (fields.flatMap (fun field => ' '.toUInt8 :: field.text) ++ ' '.toUInt8 :: rest) =
      ' '.toUInt8 :: rest := by
  induction fields with
  | nil => rfl
  | cons field others ih =>
      have spaces : skipSpaces (' '.toUInt8 :: field.text ++ (others.flatMap (fun field => ' '.toUInt8 :: field.text) ++
          ' '.toUInt8 :: rest)) = field.text ++ (others.flatMap (fun field => ' '.toUInt8 :: field.text) ++
          ' '.toUInt8 :: rest) :=
        skipSpaces_text field.some fun byte member => (field.plain byte member).2.1
      have next : ∃ tail, others.flatMap (fun field => ' '.toUInt8 :: field.text) ++ ' '.toUInt8 :: rest =
          ' '.toUInt8 :: tail := by
        cases others with
        | nil => exact ⟨rest, rfl⟩
        | cons other _ => exact ⟨_, rfl⟩
      obtain ⟨tail, shape⟩ := next
      rw [List.length_cons, skipFields, List.flatMap_cons, List.append_assoc, spaces, shape,
        skipField_text fun byte member => ⟨(field.plain byte member).1, (field.plain byte member).2.1⟩, ← shape, ih]

/-- The digits are read from the most significant one on. -/
theorem foldl_digits (digits : List UInt8) :
    digits.foldl (fun value byte => 10 * value + (byte.toNat - '0'.toNat)) 0 =
      Nat.ofDigits 10 (digits.reverse.map fun byte => byte.toNat - '0'.toNat) := by
  induction digits using List.reverseRecOn with
  | nil => rfl
  | append_singleton digits last ih =>
      rw [List.foldl_append, ih, List.reverse_append]
      simp only [List.foldl_cons, List.foldl_nil, List.reverse_singleton, List.singleton_append, List.map_cons,
        Nat.ofDigits_cons]
      exact Nat.add_comm _ _

theorem takeWhile_append {takes : UInt8 → Bool} {text rest : List UInt8} (taken : ∀ byte ∈ text, takes byte = true)
    (stops : ∀ byte ∈ rest.head?, takes byte = false) : (text ++ rest).takeWhile takes = text := by
  rw [List.takeWhile_append_of_pos taken]
  cases rest with
  | nil => simp
  | cons byte rest => simp [stops byte rfl]

end Scan

namespace StatLine

variable {line : StatLine}

theorem fromChars_startTime {value : Nat} (starts : line.Starts value) {rest : List UInt8}
    (separated : ∀ byte ∈ rest.head?, byte = ' '.toUInt8 ∨ byte = '\n'.toUInt8) :
    fromChars (line.startTime.text ++ rest) = some value := by
  obtain ⟨digits, rfl, small⟩ := starts
  have taken : (line.startTime.text ++ rest).takeWhile isDigit = line.startTime.text := by
    refine takeWhile_append digits fun byte member => ?_
    rcases separated byte member with rfl | rfl <;> decide
  have proper : ¬ (line.startTime.text.isEmpty = true ∨ 2 ^ 64 ≤
      Nat.ofDigits 10 (line.startTime.text.reverse.map fun byte => byte.toNat - '0'.toNat)) := by
    rw [List.isEmpty_iff, not_or, not_le]
    exact ⟨line.startTime.some, small⟩
  rw [fromChars, taken, foldl_digits, if_neg proper]

theorem head_whole : ∀ byte ∈ line.pid.text ++ ' '.toUInt8 :: '('.toUInt8 :: line.comm, byte ≠ 0 := by
  intro byte member
  simp only [List.mem_append, List.mem_cons] at member
  rcases member with digit | rfl | rfl | named
  · exact (line.pid.plain byte digit).1
  · decide
  · decide
  · exact line.named byte named

theorem fields_absent : ')'.toUInt8 ∉ line.fields := by
  intro member
  simp only [fields, List.mem_append, List.mem_flatMap, List.mem_cons] at member
  rcases member with ⟨field, -, space | inside⟩ | space | inside
  · exact absurd space (by decide)
  · exact (field.plain _ inside).2.2.2 rfl
  · exact absurd space (by decide)
  · exact (line.startTime.plain _ inside).2.2.2 rfl

/-- The buffer holds the line up to field 22 and a part of the rest. -/
theorem startTokenOf_head {rest : List UInt8} (separated : ∀ byte ∈ rest.head?, byte = ' '.toUInt8 ∨ byte = '\n'.toUInt8)
    (later : ∀ byte ∈ rest, byte ≠ ')'.toUInt8) :
    (isDeadState line.state = true → startTokenOf (line.head ++ rest) = kDeadProcessStartToken) ∧
      (isDeadState line.state = false → ∀ value, line.Starts value → startTokenOf (line.head ++ rest) = value) := by
  have absent : ')'.toUInt8 ∉ ' '.toUInt8 :: line.state :: (line.fields ++ rest) := by
    simp only [List.mem_cons, List.mem_append, not_or]
    exact ⟨by decide, line.proper.2.2.2.symm, line.fields_absent, fun member => later _ member rfl⟩
  have found : strrchr ')'.toUInt8 (line.head ++ rest) =
      some (')'.toUInt8 :: ' '.toUInt8 :: line.state :: (line.fields ++ rest)) := by
    have last := strrchr_append line.head_whole (by decide) absent
    simpa [head] using last
  have field : skipSpaces (' '.toUInt8 :: line.state :: (line.fields ++ rest)) = line.state :: (line.fields ++ rest) := by
    have skipped := @skipSpaces_text [line.state] (line.fields ++ rest) (by simp) (by simpa using line.proper.2.1)
    simpa using skipped
  have parsed : startTokenOf (line.head ++ rest) = if isDeadState line.state then kDeadProcessStartToken
      else (fromChars (skipSpaces (skipFields (22 - 3) (line.state :: (line.fields ++ rest))))).getD 0 := by
    rw [startTokenOf, found]
    simp only [List.drop_one, List.tail_cons, field, List.headD_cons]
  rw [parsed]
  constructor
  · intro dead
    rw [if_pos dead]
  · intro alive value starts
    rw [if_neg (by simp [alive])]
    -- the first round passes the state, the others pass the fields 4 to 21
    have first : skipField (skipSpaces (line.state :: (line.fields ++ rest))) = line.fields ++ rest := by
      obtain ⟨proper, solid, -⟩ := line.proper
      have begins : ∃ tail, line.fields ++ rest = ' '.toUInt8 :: tail := by
        unfold fields
        cases line.middle with
        | nil => exact ⟨_, rfl⟩
        | cons other _ => exact ⟨_, rfl⟩
      obtain ⟨tail, shape⟩ := begins
      have stays : skipSpaces (line.state :: (line.fields ++ rest)) = [line.state] ++ (line.fields ++ rest) := by
        simp [skipSpaces, solid]
      rw [stays, shape]
      exact skipField_text fun byte member => by
        rw [List.mem_singleton.mp member]
        exact ⟨proper, solid⟩
    have passed : skipFields 18 (line.fields ++ rest) = ' '.toUInt8 :: line.startTime.text ++ rest := by
      have rounds := skipFields_flatMap line.middle (line.startTime.text ++ rest)
      rw [line.count] at rounds
      simpa [fields] using rounds
    have spaces : skipSpaces (' '.toUInt8 :: line.startTime.text ++ rest) = line.startTime.text ++ rest :=
      skipSpaces_text line.startTime.some fun byte member => (line.startTime.plain byte member).2.1
    rw [show 22 - 3 = 18 + 1 from rfl, skipFields, first, passed, spaces, fromChars_startTime starts separated]
    rfl

end StatLine

/-- The token of a process is field 22 of its line, or the token of the dead. -/
theorem processStartToken_statLine {files : String → Option (List UInt8)} {pid : UInt32} {line : StatLine}
    (file : files (statPath pid) = some line.content) (fits : line.head.length ≤ kContentSize - 1) :
    (isDeadState line.state = true → processStartToken files pid = kDeadProcessStartToken) ∧
      (isDeadState line.state = false → ∀ value, line.Starts value → processStartToken files pid = value) := by
  have buffer : line.content.take (kContentSize - 1) = line.head ++ line.rest.take (kContentSize - 1 - line.head.length) := by
    rw [StatLine.content, List.take_append, List.take_of_length_le fits]
  have some : line.head ≠ [] := by simp [StatLine.head]
  have token : processStartToken files pid =
      startTokenOf (line.head ++ line.rest.take (kContentSize - 1 - line.head.length)) := by
    rw [processStartToken, file]
    simp only [buffer, List.isEmpty_iff, List.append_eq_nil_iff, some, false_and, if_false]
  rw [token]
  refine StatLine.startTokenOf_head (fun byte member => ?_) fun byte member => ?_
  · rw [List.head?_take] at member
    split at member
    · cases member
    · exact line.separated byte member
  · exact (line.later byte (List.mem_of_mem_take member)).2

/-- A check of every byte of a list. -/
theorem forall_of_all {p : UInt8 → Prop} [DecidablePred p] {text : List UInt8}
    (checked : (text.all fun byte => decide (p byte)) = true) : ∀ byte ∈ text, p byte := by
  intro byte member
  exact of_decide_eq_true (List.all_eq_true.mp checked byte member)

/-- The name ends like a line of a dead process. -/
def disguisedLine : StatLine where
  pid := ⟨['4', '2'].map Char.toUInt8, by decide, forall_of_all (by decide)⟩
  comm := [')', ' ', 'Z', ' ', '1', ' ', '('].map Char.toUInt8
  state := 'S'.toUInt8
  middle := List.replicate 18 ⟨['0'].map Char.toUInt8, by decide, forall_of_all (by decide)⟩
  startTime := ⟨['7', '0'].map Char.toUInt8, by decide, forall_of_all (by decide)⟩
  rest := [' ', '1', '\n'].map Char.toUInt8
  named := forall_of_all (by decide)
  proper := by decide
  count := rfl
  separated _ first := .inl (Option.some.inj first).symm
  later := forall_of_all (by decide)

theorem processStartToken_statLine_disguised :
    processStartToken (fun path => if path = statPath 42 then some disguisedLine.content else none) 42 = 70 :=
  (processStartToken_statLine (if_pos rfl) (by decide)).2 (by decide) 70
    ⟨forall_of_all (by decide), by decide, by decide⟩

/-- A registration names a living process exactly when it holds the start time of the line. -/
theorem isRegisteredProcessAlive_iff {files : String → Option (List UInt8)} {kill : UInt32 → Probe} {pid : UInt32}
    {line : StatLine} {value startToken : Nat} (file : files (statPath pid) = some line.content)
    (fits : line.head.length ≤ kContentSize - 1) (starts : line.Starts value) (running : pid ≠ 0)
    (proper : 0 < value ∧ value < kDeadProcessStartToken) (known : startToken ≠ 0) :
    isRegisteredProcessAlive files kill pid startToken = true ↔ isDeadState line.state = false ∧ value = startToken := by
  obtain ⟨dead, alive⟩ := processStartToken_statLine file fits
  unfold isRegisteredProcessAlive
  dsimp only
  rw [if_neg running]
  cases state : isDeadState line.state with
  | true => simp [dead state]
  | false =>
      rw [alive state value starts, if_neg proper.2.ne, if_pos ⟨known, proper.1.ne'⟩]
      simp

end Salias.ProcessStart
