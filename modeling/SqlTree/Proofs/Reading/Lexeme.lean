import SqlTree.Dialect
import Mathlib.Data.String.Basic

/-!
# Reading — lexemes

The text of an expression falls into lexemes: quoted names, placeholders, words, operators and
punctuation.  `lexFrom` goes through the characters once.  A `Scan` is what it has read of a lexeme
that may go on; a character that does not continue it ends the lexeme and begins another one, so
each lexeme is as long as it can be.

A quote inside a quoted name is written twice, and only a quote that stands alone ends the name.  A
placeholder is a numeral behind `$`, or a `?`; the `?` are numbered in the order in which they
stand.
-/

namespace SqlTree

inductive Lexeme where
  | name (s : String)
  | parameter (k : Nat)
  | dot
  | opening
  | closing
  | not
  | is
  | null
  | operator (op : BinaryOperator)
deriving DecidableEq, Inhabited

/-- The lexeme of a word or of a symbol. -/
def Lexeme.ofText? (s : String) : Option Lexeme :=
  if s = "not" then some .not
  else if s = "is" then some .is
  else if s = "null" then some .null
  else (BinaryOperator.all.find? fun op => op.sql = s).map .operator

/-- The lexemes of an operator; two of the comparisons are two words. -/
def BinaryOperator.lexemes : BinaryOperator → List Lexeme
  | notLike => [.not, .operator like]
  | notIn => [.not, .operator isIn]
  | op => [.operator op]

/-- The characters of the operators that are not words. -/
def symbols : List Char := ['=', '<', '>', '+', '-', '*', '/', '%']

/-- The characters of words and the characters of symbols. -/
def inRun (symbolic : Bool) (c : Char) : Bool :=
  if symbolic then symbols.contains c else c.isAlpha

/-- Whether characters are a word, or a symbol. -/
def isRun (symbolic : Bool) (cs : List Char) : Bool := !cs.isEmpty && cs.all (inRun symbolic)

theorem not_inRun_of_mem_symbols {c : Char} (h : c ∈ symbols) : ¬ inRun false c := by
  have hall : symbols.all (fun c => !inRun false c) := rfl
  simpa using List.all_eq_true.mp hall c h

/-- A lexeme that has been read in part. -/
inductive Scan where
  | between
  | name (s : List Char)
  /-- A name and a quote, which ends it unless another quote follows. -/
  | closed (s : List Char)
  | numeral (ds : List Char)
  | run (symbolic : Bool) (cs : List Char)
deriving Inhabited

/-- The lexeme with one more character, if that belongs to it. -/
def Scan.extend? (d : Dialect) (c : Char) : Scan → Option Scan
  | between => none
  | name s => some (if c = d.quote then closed s else name (s ++ [c]))
  | closed s => if c = d.quote then some (name (s ++ [c])) else none
  | numeral ds => if c.isDigit then some (numeral (ds ++ [c])) else none
  | run symbolic cs => if inRun symbolic c then some (run symbolic (cs ++ [c])) else none

/-- What has been read, if it is a whole lexeme. -/
def Scan.lexemes? : Scan → Option (List Lexeme)
  | between => some []
  | name _ => none
  | closed s => some [.name (String.ofList s)]
  | numeral ds => if ds.isEmpty then none else some [.parameter (Nat.ofDigitChars 10 ds 0)]
  | run _ cs => (Lexeme.ofText? (String.ofList cs)).map fun t => [t]

/-- What a character begins: whole lexemes, the number of the next placeholder, and a part of a
lexeme. -/
def begin? (d : Dialect) (k : Nat) (c : Char) : Option (List Lexeme × Nat × Scan) :=
  if inRun false c then some ([], k, .run false [c])
  else if inRun true c then some ([], k, .run true [c])
  else if c = d.quote then some ([], k, .name [])
  else if c = ' ' then some ([], k, .between)
  else if c = '$' then some ([], k + 1, .numeral [])
  else if c = '?' then some ([.parameter k], k + 1, .between)
  else if c = '.' then some ([.dot], k, .between)
  else if c = '(' then some ([.opening], k, .between)
  else if c = ')' then some ([.closing], k, .between)
  else none

/-- The lexemes of a text, where `k` is the number of the next placeholder. -/
def lexFrom (d : Dialect) (k : Nat) (s : Scan) : List Char → Option (List Lexeme)
  | [] => s.lexemes?
  | c :: cs =>
    match s.extend? d c with
    | some s' => lexFrom d k s' cs
    | none =>
      -- what has been read ends here, and the character begins what comes next
      s.lexemes?.bind fun before =>
        (begin? d k c).bind fun (now, k', s') => (lexFrom d k' s' cs).map (before ++ now ++ ·)

/-! ### The ends of lexemes -/

section
variable {d : Dialect} {k : Nat}

theorem lexFrom_extend {s s' : Scan} {c : Char} {cs : List Char} (h : s.extend? d c = some s') :
    lexFrom d k s (c :: cs) = lexFrom d k s' cs := by
  rw [lexFrom, h]

/-- A lexeme takes up all the characters that belong to it. -/
theorem lexFrom_extend_all {scan : List Char → Scan} {cs : List Char} (rest : List Char)
    (h : ∀ s, ∀ c ∈ cs, (scan s).extend? d c = some (scan (s ++ [c]))) :
    ∀ s, lexFrom d k (scan s) (cs ++ rest) = lexFrom d k (scan (s ++ cs)) rest := by
  induction cs with
  | nil =>
      intro s
      rw [List.nil_append, List.append_nil]
  | cons c cs ih =>
      intro s
      have hcs := ih (fun s c hc => h s c (List.mem_cons_of_mem _ hc)) (s ++ [c])
      rw [List.cons_append, lexFrom_extend (h s c List.mem_cons_self), hcs, List.append_assoc,
        List.singleton_append]

/-- A lexeme ends in front of what does not belong to it. -/
theorem lexFrom_end {s : Scan} {cs : List Char} (h : ∀ c ∈ cs.head?, s.extend? d c = none) :
    lexFrom d k s cs =
      s.lexemes?.bind fun before => (lexFrom d k .between cs).map (before ++ ·) := by
  cases cs with
  | nil => simp [lexFrom, Scan.lexemes?]
  | cons c cs =>
      rw [lexFrom, h c rfl, lexFrom]
      simp [Scan.extend?, Scan.lexemes?, Option.map_bind, Function.comp_def]

theorem lexFrom_begin {c : Char} {cs : List Char} {now : List Lexeme} {k' : Nat} {s : Scan}
    (h : begin? d k c = some (now, k', s)) :
    lexFrom d k .between (c :: cs) = (lexFrom d k' s cs).map (now ++ ·) := by
  rw [lexFrom, h]
  rfl

/-! ### The lexemes of pieces -/

/-- A blank or a closing parenthesis, or the end of the text, ends every lexeme. -/
def EndsLexeme (cs : List Char) : Prop := ∀ c ∈ cs.head?, c = ' ' ∨ c = ')'

theorem endsLexeme_nil : EndsLexeme [] := fun _ h => by cases h

theorem endsLexeme_blank (cs : List Char) : EndsLexeme (' ' :: cs) :=
  fun _ h => .inl (Option.some.inj h).symm

theorem endsLexeme_closing (cs : List Char) : EndsLexeme (')' :: cs) :=
  fun _ h => .inr (Option.some.inj h).symm

theorem lexFrom_blank (cs : List Char) :
    lexFrom d k .between (' ' :: cs) = lexFrom d k .between cs := by
  have h : begin? d k ' ' = some ([], k, .between) := by cases d <;> rfl
  rw [lexFrom_begin h]
  simp

theorem lexFrom_opening (cs : List Char) :
    lexFrom d k .between ('(' :: cs) = (lexFrom d k .between cs).map (.opening :: ·) := by
  have h : begin? d k '(' = some ([.opening], k, .between) := by cases d <;> rfl
  exact lexFrom_begin h

theorem lexFrom_closing (cs : List Char) :
    lexFrom d k .between (')' :: cs) = (lexFrom d k .between cs).map (.closing :: ·) := by
  have h : begin? d k ')' = some ([.closing], k, .between) := by cases d <;> rfl
  exact lexFrom_begin h

theorem lexFrom_dot (cs : List Char) :
    lexFrom d k .between ('.' :: cs) = (lexFrom d k .between cs).map (.dot :: ·) := by
  have h : begin? d k '.' = some ([.dot], k, .between) := by cases d <;> rfl
  exact lexFrom_begin h

/-- A word or a symbol, in front of what does not continue it. -/
theorem lexFrom_run (symbolic : Bool) (cs : List Char) {t : Lexeme} (rest : List Char)
    (hrun : isRun symbolic cs) (ht : Lexeme.ofText? (String.ofList cs) = some t)
    (hend : ∀ x ∈ rest.head?, ¬ inRun symbolic x) :
    lexFrom d k .between (cs ++ rest) = (lexFrom d k .between rest).map (t :: ·) := by
  cases cs with
  | nil => cases hrun
  | cons c cs =>
      have hmem : ∀ x ∈ c :: cs, inRun symbolic x := List.all_eq_true.mp hrun
      have hc := hmem c List.mem_cons_self
      have hbegin : begin? d k c = some ([], k, .run symbolic [c]) := by
        cases symbolic with
        | false => rw [begin?, if_pos hc]
        | true =>
            -- no symbol is a letter
            have hword := not_inRun_of_mem_symbols (List.contains_iff_mem.mp hc)
            rw [begin?, if_neg hword, if_pos hc]
      have hall : ∀ s, ∀ x ∈ cs,
          (Scan.run symbolic s).extend? d x = some (.run symbolic (s ++ [x])) :=
        fun s x hx => if_pos (hmem x (List.mem_cons_of_mem _ hx))
      have hnone : ∀ x ∈ rest.head?, (Scan.run symbolic ([c] ++ cs)).extend? d x = none :=
        fun x hx => if_neg (hend x hx)
      rw [List.cons_append, lexFrom_begin hbegin, lexFrom_extend_all rest hall, lexFrom_end hnone,
        Scan.lexemes?, List.singleton_append, ht]
      simp [Function.comp_def]

/-- Inside a name its quotes are read back one for two. -/
theorem lexFrom_escaped (s name rest : List Char) :
    lexFrom d k (.name s)
        (name.flatMap (fun c => if c = d.quote then [c, c] else [c]) ++ d.quote :: rest) =
      lexFrom d k (.closed (s ++ name)) rest := by
  induction name generalizing s with
  | nil =>
      have hclose : (Scan.name s).extend? d d.quote = some (.closed s) :=
        congrArg some (if_pos rfl)
      rw [List.flatMap_nil, List.nil_append, List.append_nil, lexFrom_extend hclose]
  | cons c name ih =>
      have hs : s ++ c :: name = s ++ [c] ++ name := by
        rw [List.append_assoc, List.singleton_append]
      rw [List.flatMap_cons, List.append_assoc, hs, ← ih]
      by_cases hc : c = d.quote
      · -- the first of two quotes closes the name, and the second opens it again
        have hclose : (Scan.name s).extend? d c = some (.closed s) := congrArg some (if_pos hc)
        have hdouble : (Scan.closed s).extend? d c = some (.name (s ++ [c])) := if_pos hc
        rw [if_pos hc, List.cons_append, lexFrom_extend hclose, List.cons_append,
          lexFrom_extend hdouble, List.nil_append]
      · have hnext : (Scan.name s).extend? d c = some (.name (s ++ [c])) :=
          congrArg some (if_neg hc)
        rw [if_neg hc, List.cons_append, lexFrom_extend hnext, List.nil_append]

theorem lexFrom_quoted (name : String) {rest : List Char}
    (h : ∀ c ∈ rest.head?, c ≠ d.quote) :
    lexFrom d k .between ((d.quoted name).toList ++ rest) =
      (lexFrom d k .between rest).map (.name name :: ·) := by
  have hbegin : begin? d k d.quote = some ([], k, .name []) := by cases d <;> rfl
  have hend : ∀ c ∈ rest.head?, (Scan.closed ([] ++ name.toList)).extend? d c = none :=
    fun c hc => if_neg (h c hc)
  rw [Dialect.quoted, String.toList_ofList, List.append_assoc, List.cons_append,
    lexFrom_begin hbegin, List.singleton_append, lexFrom_escaped, lexFrom_end hend]
  simp [Scan.lexemes?, Function.comp_def]

theorem lexFrom_mark (rest : List Char) :
    lexFrom d k .between ('?' :: rest) =
      (lexFrom d (k + 1) .between rest).map (.parameter k :: ·) := by
  have h : begin? d k '?' = some ([.parameter k], k + 1, .between) := by cases d <;> rfl
  exact lexFrom_begin h

/-- Behind `$` the numeral is the number of the placeholder. -/
theorem lexFrom_numbered {rest : List Char} (h : ∀ c ∈ rest.head?, ¬ c.isDigit) :
    lexFrom d k .between ('$' :: (Nat.toDigits 10 k ++ rest)) =
      (lexFrom d (k + 1) .between rest).map (.parameter k :: ·) := by
  have hbegin : begin? d k '$' = some ([], k + 1, .numeral []) := by cases d <;> rfl
  have hall : ∀ s, ∀ c ∈ Nat.toDigits 10 k,
      (Scan.numeral s).extend? d c = some (.numeral (s ++ [c])) :=
    fun s c hc => if_pos (Nat.isDigit_of_mem_toDigits (by decide) (by decide) hc)
  have hend : ∀ c ∈ rest.head?, (Scan.numeral (Nat.toDigits 10 k)).extend? d c = none :=
    fun c hc => if_neg (h c hc)
  have hlex : (Scan.numeral (Nat.toDigits 10 k)).lexemes? = some [.parameter k] := by
    rw [Scan.lexemes?, Nat.ofDigitChars_ten_toDigits]
    exact if_neg (by simp [Nat.toDigits_ne_nil])
  rw [lexFrom_begin hbegin, lexFrom_extend_all rest hall, List.nil_append, lexFrom_end hend, hlex]
  simp [Function.comp_def]

theorem lexFrom_placeholder {rest : List Char} (h : ∀ c ∈ rest.head?, ¬ c.isDigit) :
    lexFrom d k .between ((d.placeholder k).toList ++ rest) =
      (lexFrom d (k + 1) .between rest).map (.parameter k :: ·) := by
  cases d with
  | mysql | sqlite =>
      simpa [Dialect.placeholder] using lexFrom_mark rest
  | postgres =>
      simpa [Dialect.placeholder, Nat.toString_eq_repr, Nat.toList_repr] using lexFrom_numbered h

/-- A word or a symbol, with the blank behind it. -/
theorem lexFrom_run_blank (symbolic : Bool) (cs : List Char) {t : Lexeme} (rest : List Char)
    (hrun : isRun symbolic cs) (ht : Lexeme.ofText? (String.ofList cs) = some t) :
    lexFrom d k .between (cs ++ ' ' :: rest) = (lexFrom d k .between rest).map (t :: ·) := by
  have hend : ∀ x ∈ (' ' :: rest).head?, ¬ inRun symbolic x := by
    intro x hx
    obtain rfl := Option.some.inj hx
    cases symbolic <;> decide
  rw [lexFrom_run symbolic cs _ hrun ht hend, lexFrom_blank]

theorem lexFrom_not (rest : List Char) :
    lexFrom d k .between ("not ".toList ++ rest) = (lexFrom d k .between rest).map (.not :: ·) :=
  lexFrom_run_blank false "not".toList rest rfl rfl

/-- An operator, in front of the blank behind it. -/
theorem lexFrom_operator (op : BinaryOperator) (rest : List Char) :
    lexFrom d k .between (op.sql.toList ++ ' ' :: rest) =
      (lexFrom d k .between rest).map (op.lexemes ++ ·) := by
  cases op with
  | eq | notEq | lt | ltEq | gt | gtEq | add | sub | mul | div | mod =>
      exact lexFrom_run_blank true _ rest rfl rfl
  | like | isIn | and | or => exact lexFrom_run_blank false _ rest rfl rfl
  | notLike =>
      -- `not` and `like` are two lexemes
      have h := lexFrom_run_blank (d := d) (k := k) false "like".toList rest rfl rfl
      exact (lexFrom_not _).trans ((congrArg _ h).trans (Option.map_map _ _ _))
  | notIn =>
      have h := lexFrom_run_blank (d := d) (k := k) false "in".toList rest rfl rfl
      exact (lexFrom_not _).trans ((congrArg _ h).trans (Option.map_map _ _ _))

end

end SqlTree
