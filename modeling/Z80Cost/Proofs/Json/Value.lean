import Z80Cost.Proofs.Json.Scalar

/-!
Arrays and objects are read back as they were written: each part on a line of its own is taken into the
open array or object, and the end of the block puts the whole where its value was due. What is read in
front of any text that a value may stand before is read in every place of a larger one.
-/

namespace Z80Cost.Json

/-- What becomes of the rest of a text after a token. -/
def resume (rest : Text) : Except Fault Progress → Except Fault Json
  | .error fault => .error fault
  | .ok (.done value) => .ok value
  | .ok (.go next) => next.read 0 rest

theorem read_drop (reader : Reader) (skip : Nat) (s : Text) :
    reader.read skip s = reader.read 0 (s.drop skip) := by
  induction s generalizing skip with
  | nil => simp [Reader.read]
  | cons b s ih =>
      cases skip with
      | zero => rfl
      | succ skip =>
          rw [Reader.read, List.drop_succ_cons]
          exact ih skip

theorem read_token (reader : Reader) (b : UInt8) (more rest : Text) (outcome : Except Fault Progress)
    (solid : isBlank b = false) (token : reader.token b (more ++ rest) = outcome.map (·, more.length)) :
    reader.read 0 (b :: (more ++ rest)) = resume rest outcome := by
  rw [Reader.read, solid, token]
  cases outcome with
  | error fault => rfl
  | ok progress =>
      cases progress with
      | done value => rfl
      | go next =>
          have skipped := read_drop next more.length (more ++ rest)
          rw [List.drop_left] at skipped
          exact skipped

theorem read_blanks (reader : Reader) (blanks s : Text) (each : ∀ b ∈ blanks, isBlank b = true) :
    reader.read 0 (blanks ++ s) = reader.read 0 s := by
  induction blanks with
  | nil => rfl
  | cons b blanks ih =>
      obtain ⟨first, others⟩ := List.forall_mem_cons.mp each
      rw [List.cons_append, Reader.read, first]
      exact ih others

theorem newLine_eq (depth : Nat) : newLine depth = ('\n' : UInt8) :: List.replicate (2 * depth) (' ' : UInt8) := by
  have feed : Text.ofString "\n" = [('\n' : UInt8)] := by decide
  rw [newLine, feed]
  rfl

theorem newLine_blank (depth : Nat) : ∀ b ∈ newLine depth, isBlank b = true := by
  intro b member
  rw [newLine_eq, List.mem_cons] at member
  rcases member with rfl | space
  · decide
  · rw [List.eq_of_mem_replicate space]
    decide

theorem ends_newLine (depth : Nat) (rest : Text) : Ends (newLine depth ++ rest) := by
  rw [newLine_eq]
  exact .inr rfl

theorem ends_comma (rest : Text) : Ends ((',' : UInt8) :: rest) := .inl rfl

/-- Where a value is due, the text is read as that value, if `height` more arrays and objects may be
opened. -/
def Reads (height : Nat) (text : Text) (value : Json) : Prop :=
  ∀ frames due room rest, due = .value ∨ due = .firstItem → height ≤ room → Ends rest →
    (⟨frames, due, room⟩ : Reader).read 0 (text ++ rest) =
      resume rest ((⟨frames, due, room⟩ : Reader).put value)

theorem Reads.mono {low high : Nat} {text : Text} {value : Json} (reads : Reads low text value)
    (higher : low ≤ high) : Reads high text value :=
  fun frames due room rest fresh fits => reads frames due room rest fresh (Nat.le_trans higher fits)

theorem reads_scalar (b : UInt8) (more : Text) (value : Json) (solid : isBlank b = false)
    (plain : b ≠ '[' ∧ b ≠ '\x7b' ∧ b ≠ ']')
    (scalar : ∀ rest, Ends rest → readScalar b (more ++ rest) = .ok (value, more.length)) :
    Reads 0 (b :: more) value := by
  obtain ⟨array, object, closing⟩ := plain
  intro frames due room rest fresh _ ends
  apply read_token _ b more rest _ solid
  have read : (⟨frames, due, room⟩ : Reader).value b (more ++ rest) =
      ((⟨frames, due, room⟩ : Reader).put value).map (·, more.length) := by
    rw [Reader.value, if_neg array, if_neg object, scalar rest ends]
    rfl
  rcases fresh with rfl | rfl
  · exact read
  · rw [← read, Reader.token]
    exact if_neg closing

theorem reads_quote (s : Text) (valid : Text.IsUtf8 s) : Reads 0 (quote s) (.string s) := by
  obtain ⟨body, written, read⟩ := readString_quote s valid
  rw [written]
  apply reads_scalar '"' _ _ (by decide) (by decide)
  intro rest _
  rw [List.append_assoc, List.singleton_append, readScalar, if_pos rfl, read rest, List.length_append]
  rfl

theorem reads_ofInt64 (v : Int64) : Reads 0 (Text.ofInt64 v) (.number (Text.ofInt64 v)) := by
  have start : ∃ b more, Text.ofInt64 v = b :: more ∧ (b = '-' ∨ Text.isDigit b = true) := by
    rw [Text.ofInt64, Text.ofInt]
    split
    · exact ⟨_, _, rfl, .inl rfl⟩
    · have digit : ∀ b ∈ Text.ofNat v.toInt.natAbs, Text.isDigit b = true :=
        Text.forall_mem_ofNat _ (by decide) _
      obtain ⟨b, more, whole⟩ := List.exists_cons_of_ne_nil (Text.ofNat_ne_nil v.toInt.natAbs)
      exact ⟨b, more, whole, .inr (digit b (by simp [whole]))⟩
  obtain ⟨b, more, whole, first⟩ := start
  -- Neither a sign nor a digit begins any other value.
  have other : ∀ c : UInt8, c ≠ '-' → Text.isDigit c = false → b ≠ c := by
    rintro c unsigned undigit rfl
    rcases first with sign | digit
    · exact unsigned sign
    · simp [digit] at undigit
  have solid : isBlank b = false := by
    simp only [isBlank, Bool.or_eq_false_iff, beq_eq_false_iff_ne]
    exact ⟨⟨⟨other ' ' (by decide) (by decide), other '\t' (by decide) (by decide)⟩,
      other '\r' (by decide) (by decide)⟩, other '\n' (by decide) (by decide)⟩
  have scalar : ∀ rest, Ends rest →
      readScalar b (more ++ rest) = .ok (.number (Text.ofInt64 v), more.length) := by
    intro rest ends
    have length := numberLength_ofInt64 v rest ends
    rw [whole, List.cons_append] at length
    rw [readScalar, if_neg (other '"' (by decide) (by decide)), if_neg (other 'n' (by decide) (by decide)),
      if_neg (other 't' (by decide) (by decide)), if_neg (other 'f' (by decide) (by decide)), if_pos first, length,
      whole]
    change Except.ok (number ((b :: (more ++ rest)).take (b :: more).length), _) = _
    rw [← List.cons_append, List.take_left]
    rfl
  rw [whole] at scalar ⊢
  exact reads_scalar b more _ solid ⟨other '[' (by decide) (by decide), other '\x7b' (by decide) (by decide),
    other ']' (by decide) (by decide)⟩ scalar

/-- Arrays and objects alike: a part is a key with its value, and in an array the key has no meaning. -/
inductive Container where
  | array
  | object

namespace Container

def opening : Container → UInt8
  | array => '['
  | object => '\x7b'

def closing : Container → UInt8
  | array => ']'
  | object => '\x7d'

def first : Container → Due
  | array => .firstItem
  | object => .firstKey

def next : Container → Due
  | array => .value
  | object => .key

/-- Open, with the parts read so far, last first. -/
def frame : Container → List (Text × Json) → Frame
  | array, parts => .array (parts.map Prod.snd)
  | object, parts => .object parts

def value : Container → List (Text × Json) → Json
  | array, parts => .array (parts.map Prod.snd)
  | object, parts => .object parts

/-- Where a part is due, the text is taken in as that part. -/
def ReadsPart (container : Container) (height : Nat) (text : Text) (part : Text × Json) : Prop :=
  ∀ done outer due room rest, due = container.first ∨ due = container.next → height ≤ room → Ends rest →
    (⟨container.frame done :: outer, due, room⟩ : Reader).read 0 (text ++ rest) =
      (⟨container.frame (part :: done) :: outer, .separator, room⟩ : Reader).read 0 rest

theorem readsPart_item (height : Nat) (text key : Text) (value : Json) (reads : Reads height text value) :
    array.ReadsPart height text (key, value) := by
  intro done outer due room rest fresh fits ends
  rw [reads _ due room rest fresh.symm fits ends]
  rfl

theorem read_key (key : Text) (valid : Text.IsUtf8 key) (done : List (Text × Json)) (outer : List Frame)
    (due : Due) (room : Nat) (s : Text) (fresh : due = .firstKey ∨ due = .key) :
    (⟨.object done :: outer, due, room⟩ : Reader).read 0 (quote key ++ s) =
      (⟨.member done key :: outer, .colon, room⟩ : Reader).read 0 s := by
  obtain ⟨body, written, read⟩ := readString_quote key valid
  rw [written, List.cons_append]
  apply read_token _ '"' (body ++ [('"' : UInt8)]) s (.ok (.go _)) (by decide)
  have token : (⟨.object done :: outer, due, room⟩ : Reader).key '"' (body ++ [('"' : UInt8)] ++ s) =
      .ok (.go ⟨.member done key :: outer, .colon, room⟩, body.length + 1) := by
    rw [List.append_assoc, List.singleton_append]
    simp only [Reader.key, ↓reduceIte, read s]
    rfl
  rw [List.length_append]
  rcases fresh with rfl | rfl <;> exact token

theorem readsPart_member (height : Nat) (key text : Text) (value : Json) (valid : Text.IsUtf8 key)
    (reads : Reads height text value) : object.ReadsPart height (quote key ++ ": " ++ text) (key, value) := by
  intro done outer due room rest fresh fits ends
  have colon : Text.ofString ": " = [(':' : UInt8), (' ' : UInt8)] := by decide
  have space : ∀ b ∈ [(' ' : UInt8)], isBlank b = true := List.all_eq_true.mp (by decide)
  have split : quote key ++ Text.ofString ": " ++ text ++ rest =
      quote key ++ (':' : UInt8) :: ([] ++ ([(' ' : UInt8)] ++ (text ++ rest))) := by
    simp [colon]
  rw [split, frame, read_key key valid done outer due room _ fresh,
    read_token _ ':' [] _ (.ok (.go ⟨.member done key :: outer, .value, room⟩)) (by decide) rfl, resume,
    read_blanks _ _ _ space, reads _ .value room rest (.inl rfl) fits ends]
  rfl

section Tokens
variable (container : Container) (done : List (Text × Json)) (outer : List Frame) (room : Nat) (rest : Text)

theorem read_opening (due : Due) (fresh : due = .value ∨ due = .firstItem) :
    (⟨outer, due, room + 1⟩ : Reader).read 0 (container.opening :: rest) =
      (⟨container.frame [] :: outer, container.first, room⟩ : Reader).read 0 rest := by
  have solid : isBlank container.opening = false := by cases container <;> decide
  apply read_token _ _ [] rest (.ok (.go _)) solid
  rcases fresh with rfl | rfl <;> cases container <;> rfl

theorem read_comma :
    (⟨container.frame done :: outer, .separator, room⟩ : Reader).read 0 ((',' : UInt8) :: rest) =
      (⟨container.frame done :: outer, container.next, room⟩ : Reader).read 0 rest := by
  apply read_token _ _ [] rest (.ok (.go _)) (by decide)
  cases container <;> rfl

theorem put_due (due other : Due) (value : Json) :
    (⟨outer, due, room⟩ : Reader).put value = (⟨outer, other, room⟩ : Reader).put value := by
  cases outer with
  | nil => rfl
  | cons frame outer => cases frame <;> rfl

theorem read_closing (due other : Due) (ready : due = .separator ∨ (due = container.first ∧ done = [])) :
    (⟨container.frame done :: outer, due, room⟩ : Reader).read 0 (container.closing :: rest) =
      resume rest ((⟨outer, other, room + 1⟩ : Reader).put (container.value done.reverse)) := by
  have solid : isBlank container.closing = false := by cases container <;> decide
  apply read_token _ _ [] rest _ solid
  have closed : (⟨container.frame done :: outer, due, room⟩ : Reader).close container.closing =
      (⟨outer, other, room + 1⟩ : Reader).put (container.value done.reverse) := by
    rw [put_due outer (room + 1) other due]
    cases container with
    | array => simp only [value, List.map_reverse]; rfl
    | object => rfl
  rw [← closed]
  rcases ready with rfl | ⟨rfl, rfl⟩ <;> cases container <;> rfl

end Tokens

/-- The text between the parts of a block. -/
def separator (depth : Nat) : Text := (',' : UInt8) :: newLine (depth + 1)

theorem read_parts (container : Container) (height depth : Nat) (parts : List (Text × Text × Json))
    (some : parts ≠ []) (each : ∀ part ∈ parts, container.ReadsPart height part.1 part.2)
    (done : List (Text × Json)) (outer : List Frame) (due other : Due) (room : Nat) (rest : Text)
    (fresh : due = container.first ∨ due = container.next) (fits : height ≤ room) :
    (⟨container.frame done :: outer, due, room⟩ : Reader).read 0
        (Text.join (separator depth) (parts.map Prod.fst) ++ (newLine depth ++ container.closing :: rest)) =
      resume rest ((⟨outer, other, room + 1⟩ : Reader).put
        (container.value (done.reverse ++ parts.map Prod.snd))) := by
  -- Parts move one by one from the text to those that are done.
  induction parts generalizing done due with
  | nil => exact absurd rfl some
  | cons part parts ih =>
      obtain ⟨here, others⟩ := List.forall_mem_cons.mp each
      cases parts with
      | nil =>
          rw [List.map_singleton, Text.join, List.intercalate_singleton,
            here done outer due room _ fresh fits (ends_newLine depth _), read_blanks _ _ _ (newLine_blank depth),
            read_closing container _ outer room rest .separator other (.inl rfl), List.reverse_cons]
          rfl
      | cons next parts =>
          have rest_read := ih (by simp) others (part.2 :: done) container.next (.inr rfl)
          rw [List.reverse_cons, List.append_assoc] at rest_read
          rw [List.map_cons, Text.join, List.map_cons, List.intercalate_cons_cons, ← List.map_cons, ← Text.join,
            List.append_assoc, List.append_assoc, separator, List.cons_append,
            here done outer due room _ fresh fits (ends_comma _), read_comma,
            read_blanks _ _ _ (newLine_blank (depth + 1))]
          exact rest_read

theorem reads_block (container : Container) (height depth : Nat) (parts : List (Text × Text × Json))
    (each : ∀ part ∈ parts, container.ReadsPart height part.1 part.2) :
    Reads (height + 1) (block depth [container.opening] [container.closing] (parts.map Prod.fst))
      (container.value (parts.map Prod.snd)) := by
  intro frames due room rest fresh fits _
  obtain ⟨room, rfl⟩ : ∃ less, room = less + 1 := ⟨room - 1, by omega⟩
  have comma : Text.ofString "," = [(',' : UInt8)] := by decide
  cases parts with
  | nil =>
      change (⟨frames, due, room + 1⟩ : Reader).read 0 (container.opening :: container.closing :: rest) = _
      rw [read_opening container frames room _ due fresh]
      exact read_closing container [] frames room rest container.first due (.inr ⟨rfl, rfl⟩)
  | cons part parts =>
      have whole : block depth [container.opening] [container.closing] ((part :: parts).map Prod.fst) ++ rest =
          container.opening :: (newLine (depth + 1) ++ (Text.join (separator depth)
            ((part :: parts).map Prod.fst) ++ (newLine depth ++ container.closing :: rest))) := by
        simp [block, separator, comma]
      rw [whole, read_opening container frames room _ due fresh, read_blanks _ _ _ (newLine_blank (depth + 1))]
      exact read_parts container height depth (part :: parts) (by simp) each [] frames container.first due room rest
        (.inl rfl) (by omega)

end Container

theorem reads_array (height depth : Nat) (items : List (Text × Json))
    (each : ∀ item ∈ items, Reads height item.1 item.2) :
    Reads (height + 1) (writeArray depth (items.map Prod.fst)) (.array (items.map Prod.snd)) := by
  have reads := Container.reads_block .array height depth (items.map fun item => (item.1, [], item.2)) (by
    intro part member
    obtain ⟨item, inside, rfl⟩ := List.mem_map.mp member
    exact Container.readsPart_item height item.1 [] item.2 (each item inside))
  have opening : Text.ofString "[" = [('[' : UInt8)] := by decide
  have closing : Text.ofString "]" = [(']' : UInt8)] := by decide
  rw [List.map_map, List.map_map, Container.value, List.map_map] at reads
  rw [writeArray, opening, closing]
  exact reads

/-- Written members and the members that they are read as. -/
inductive ReadsMembers (height : Nat) : List (Text × Text) → List (Text × Json) → Prop
  | nil : ReadsMembers height [] []
  | cons {key text : Text} {value : Json} {written : List (Text × Text)} {values : List (Text × Json)} :
      Text.IsUtf8 key → Reads height text value → ReadsMembers height written values →
      ReadsMembers height ((key, text) :: written) ((key, value) :: values)

theorem ReadsMembers.append {height : Nat} {front back : List (Text × Text)} {first second : List (Text × Json)}
    (here : ReadsMembers height front first) (later : ReadsMembers height back second) :
    ReadsMembers height (front ++ back) (first ++ second) := by
  induction here with
  | nil => exact later
  | cons valid reads _ ih => exact .cons valid reads ih

theorem ReadsMembers.parts {height : Nat} {written : List (Text × Text)} {values : List (Text × Json)}
    (members : ReadsMembers height written values) : ∃ parts : List (Text × Text × Json),
      (written.map fun (key, value) => quote key ++ ": " ++ value) = parts.map Prod.fst ∧
      values = parts.map Prod.snd ∧ ∀ part ∈ parts, Container.object.ReadsPart height part.1 part.2 := by
  induction members with
  | nil => exact ⟨[], rfl, rfl, by simp⟩
  | @cons key text value _ _ valid reads _ ih =>
      obtain ⟨parts, texts, same, each⟩ := ih
      refine ⟨(quote key ++ ": " ++ text, key, value) :: parts, ?_, ?_, ?_⟩
      · rw [List.map_cons, texts]
        rfl
      · rw [same]
        rfl
      · exact List.forall_mem_cons.mpr ⟨Container.readsPart_member height key text value valid reads, each⟩

theorem reads_object (height depth : Nat) (written : List (Text × Text)) (values : List (Text × Json))
    (members : ReadsMembers height written values) :
    Reads (height + 1) (writeObject depth written) (.object values) := by
  obtain ⟨parts, texts, rfl, each⟩ := members.parts
  have opening : Text.ofString "\x7b" = [('\x7b' : UInt8)] := by decide
  have closing : Text.ofString "\x7d" = [('\x7d' : UInt8)] := by decide
  rw [writeObject, texts, opening, closing]
  exact Container.reads_block .object height depth parts each

/-- A text that is read as a value wherever one is due is that value. -/
theorem read_of_reads (height : Nat) (text : Text) (value : Json) (reads : Reads height text value)
    (low : height ≤ maxDepth) (rest : Text) (ends : Ends rest) : read (text ++ rest) = .ok value := by
  exact reads [] .value maxDepth rest (.inl rfl) low ends

end Z80Cost.Json
