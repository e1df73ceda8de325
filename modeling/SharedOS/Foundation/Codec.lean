/-
SharedOS.Foundation.Codec — how typed values are written as JSON and read back.

A codec carries its own round trip, so a codec built from codecs has it without a proof. A strict
object is built member by member. Its reading looks each member up and refuses every other key, so
two strict objects that demand different words under one key never read one another
(`Tagged.refuses`), and that is what makes a discriminated union of them a codec.

The order in which the members of an object are written is no part of a JSON value.
-/
import SharedOS.Foundation.Json

namespace SharedOS.Foundation

/-- How values of `α` are written and read. What was written is read back. -/
structure Codec (α : Type) where
  write : α → Json
  read : Json → Option α
  read_write : ∀ a, read (write a) = some a

namespace Codec

variable {α β : Type}

/-! ## Values -/

/-- Any value, as it stands. -/
def json : Codec Json where
  write v := v
  read v := some v
  read_write _ := rfl

/-- A string. -/
def text : Codec JsString where
  write s := .str s
  read
    | .str s => some s
    | _ => none
  read_write _ := rfl

/-- A boolean. -/
def flag : Codec Bool where
  write b := .bool b
  read
    | .bool b => some b
    | _ => none
  read_write _ := rfl

/-- `z.number().int()`. -/
def integer : Codec ℤ where
  write n := .num (.finite n)
  read
    | .num (.finite q) => if q.den = 1 then some q.num else none
    | .num .negZero => some 0
    | _ => none
  read_write _ := rfl

/-- A value of a finite kind, by its word. -/
def word [DecidableEq α] (all : List α) (text : α → JsString)
    (h : ∀ a, (all.find? fun b => text b = text a) = some a) : Codec α where
  write a := .str (text a)
  read
    | .str s => all.find? fun b => text b = s
    | _ => none
  read_write a := h a

/-- An array of what the codec writes. -/
def list (c : Codec α) : Codec (List α) where
  write as := .arr (as.map c.write)
  read
    | .arr items => items.mapM c.read
    | _ => none
  read_write as := by
    show (as.map c.write).mapM c.read = some as
    induction as with
    | nil => rfl
    | cons a rest ih =>
        rw [List.map_cons, List.mapM_cons, c.read_write, ih]
        rfl

/-- The same JSON for another type. -/
def view (c : Codec α) (make : α → β) (parts : β → α) (h : ∀ b, make (parts b) = b) :
    Codec β where
  write b := c.write (parts b)
  read v := (c.read v).map make
  read_write b := by rw [c.read_write, Option.map_some, h]

/-- Either form, where the first never reads what the second writes. -/
def either (left : Codec α) (right : Codec β) (h : ∀ b, left.read (right.write b) = none) :
    Codec (α ⊕ β) where
  write
    | .inl a => left.write a
    | .inr b => right.write b
  read v := (left.read v).map .inl <|> (right.read v).map .inr
  read_write
    | .inl a => by rw [left.read_write]; rfl
    | .inr b => by rw [h, right.read_write]; rfl

/-- Whatever is read is an object with this word under the key. -/
def Tagged (c : Codec α) (key word : JsString) : Prop :=
  ∀ v a, c.read v = some a → ∃ entries, v = .obj entries ∧ entries.lookup key = some (.str word)

/-- **Objects told by different words under one key do not read one another.** -/
theorem Tagged.refuses {left : Codec α} {right : Codec β} {key word word' : JsString}
    (hleft : left.Tagged key word) (hright : right.Tagged key word') (hne : word ≠ word') (b : β) :
    left.read (right.write b) = none := by
  cases hread : left.read (right.write b) with
  | none => rfl
  | some a =>
      obtain ⟨entries, hobj, hword⟩ := hleft _ a hread
      obtain ⟨entries', hobj', hword'⟩ := hright _ b (right.read_write b)
      rw [hobj] at hobj'
      cases hobj'
      rw [hword] at hword'
      cases hword'
      exact absurd rfl hne

/-- What reads neither form reads no value of the two. -/
theorem refuses_either {γ : Type} {reader : Codec γ} {left : Codec α} {right : Codec β}
    {h : ∀ b, left.read (right.write b) = none} (hleft : ∀ a, reader.read (left.write a) = none)
    (hright : ∀ b, reader.read (right.write b) = none) (x : α ⊕ β) :
    reader.read ((left.either right h).write x) = none := by
  cases x with
  | inl a => exact hleft a
  | inr b => exact hright b

end Codec

/-! ## Members of an object -/

/-- An entry of an object that is left out when the value is absent. -/
def Codec.entry {α : Type} (c : Codec α) (key : JsString) : Option α → List (JsString × Json)
  | none => []
  | some a => [(key, c.write a)]

/-- A group of members, under keys of its own. They are read wherever they stand. -/
structure Members (α : Type) where
  keys : List JsString
  write : α → List (JsString × Json)
  read : List (JsString × Json) → Option α
  keys_write : ∀ a, ∀ entry ∈ write a, entry.1 ∈ keys
  read_write : ∀ a before after, (∀ entry ∈ before, entry.1 ∉ keys) →
    (∀ entry ∈ after, entry.1 ∉ keys) → read (before ++ write a ++ after) = some a

/-- A key that no entry has is looked up in vain. -/
theorem lookup_none_of_keys {key : JsString} {entries : List (JsString × Json)}
    (h : ∀ entry ∈ entries, entry.1 ≠ key) : entries.lookup key = none := by
  induction entries with
  | nil => rfl
  | cons entry rest ih =>
      obtain ⟨k, v⟩ := entry
      have hk : (key == k) = false := by
        simpa using Ne.symm (h (k, v) List.mem_cons_self)
      rw [List.lookup_cons, hk]
      exact ih fun e he => h e (List.mem_cons_of_mem _ he)

/-- The entry is found past entries with other keys. -/
theorem lookup_between {key : JsString} {v : Json} {before after : List (JsString × Json)}
    (h : ∀ entry ∈ before, entry.1 ≠ key) :
    (before ++ (key, v) :: after).lookup key = some v := by
  induction before with
  | nil => simp
  | cons entry rest ih =>
      obtain ⟨k, w⟩ := entry
      have hk : (key == k) = false := by
        simpa using Ne.symm (h (k, w) List.mem_cons_self)
      rw [List.cons_append, List.lookup_cons, hk]
      exact ih fun e he => h e (List.mem_cons_of_mem _ he)

namespace Members

variable {α β : Type}

/-- No member at all. -/
def empty : Members Unit where
  keys := []
  write _ := []
  read _ := some ()
  keys_write _ _ h := absurd h List.not_mem_nil
  read_write _ _ _ _ _ := rfl

/-- What stands around the last member has neither its key nor one of the others. -/
theorem around {m : Members α} {key : JsString} {before after : List (JsString × Json)}
    (h : key ∉ m.keys) (hbefore : ∀ entry ∈ before, entry.1 ∉ m.keys ++ [key])
    (hafter : ∀ entry ∈ after, entry.1 ∉ m.keys ++ [key]) (a : α) :
    ((∀ entry ∈ before, entry.1 ∉ m.keys) ∧ ∀ entry ∈ after, entry.1 ∉ m.keys) ∧
      (∀ entry ∈ before ++ m.write a, entry.1 ≠ key) ∧ ∀ entry ∈ after, entry.1 ≠ key := by
  refine ⟨⟨fun e he hk => hbefore e he (List.mem_append_left _ hk),
    fun e he hk => hafter e he (List.mem_append_left _ hk)⟩, fun e he hk => ?_, fun e he hk => ?_⟩
  · rcases List.mem_append.mp he with he | he
    · exact hbefore e he (List.mem_append_right _ (by simpa using hk))
    · exact h (hk ▸ m.keys_write a e he)
  · exact hafter e he (List.mem_append_right _ (by simpa using hk))

theorem read_write_self (m : Members α) (a : α) : m.read (m.write a) = some a := by
  simpa using m.read_write a [] [] (by simp) (by simp)

/-- One member more, which must be there. -/
def required (m : Members α) (key : JsString) (c : Codec β) (h : key ∉ m.keys) :
    Members (α × β) where
  keys := m.keys ++ [key]
  write ab := m.write ab.1 ++ [(key, c.write ab.2)]
  read entries := do
    let a ← m.read entries
    let b ← (entries.lookup key).bind c.read
    some (a, b)
  keys_write ab entry he := by
    rcases List.mem_append.mp he with he | he
    · exact List.mem_append_left _ (m.keys_write ab.1 entry he)
    · exact List.mem_append_right _ (by simp [List.mem_singleton.mp he])
  read_write ab before after hbefore hafter := by
    obtain ⟨⟨hb, ha⟩, hkey, hkey'⟩ := around h hbefore hafter ab.1
    have hrest : ∀ entry ∈ (key, c.write ab.2) :: after, entry.1 ∉ m.keys := by
      intro e he
      rcases List.mem_cons.mp he with rfl | he
      · exact h
      · exact ha e he
    have hshape : before ++ (m.write ab.1 ++ [(key, c.write ab.2)]) ++ after =
        before ++ m.write ab.1 ++ (key, c.write ab.2) :: after := by simp
    rw [hshape, m.read_write ab.1 before _ hb hrest, lookup_between hkey]
    show ((c.read (c.write ab.2)).bind fun b => some (ab.1, b)) = some ab
    rw [c.read_write]
    rfl

/-- One member more, which may be left out. -/
def optional (m : Members α) (key : JsString) (c : Codec β) (h : key ∉ m.keys) :
    Members (α × Option β) where
  keys := m.keys ++ [key]
  write ab := m.write ab.1 ++ c.entry key ab.2
  read entries := do
    let a ← m.read entries
    match entries.lookup key with
    | none => some (a, none)
    | some v => (c.read v).map fun b => (a, some b)
  keys_write ab entry he := by
    rcases List.mem_append.mp he with he | he
    · exact List.mem_append_left _ (m.keys_write ab.1 entry he)
    · obtain ⟨a, b⟩ := ab
      cases b with
      | none => cases he
      | some b => exact List.mem_append_right _ (by simp [List.mem_singleton.mp he])
  read_write ab before after hbefore hafter := by
    obtain ⟨a, b⟩ := ab
    obtain ⟨⟨hb, ha⟩, hkey, hkey'⟩ := around h hbefore hafter a
    cases b with
    | none =>
        have hshape : before ++ (m.write a ++ c.entry key none) ++ after =
            before ++ m.write a ++ after := by simp [Codec.entry]
        have hmissing : (before ++ m.write a ++ after).lookup key = none :=
          lookup_none_of_keys fun e he => (List.mem_append.mp he).elim (hkey e) (hkey' e)
        show ((m.read _).bind _) = _
        rw [hshape, m.read_write a before after hb ha, Option.bind_some, hmissing]
    | some b =>
        have hrest : ∀ entry ∈ (key, c.write b) :: after, entry.1 ∉ m.keys := by
          intro e he
          rcases List.mem_cons.mp he with rfl | he
          · exact h
          · exact ha e he
        have hshape : before ++ (m.write a ++ c.entry key (some b)) ++ after =
            before ++ m.write a ++ (key, c.write b) :: after := by simp [Codec.entry]
        show ((m.read _).bind _) = _
        rw [hshape, m.read_write a before _ hb hrest, Option.bind_some, lookup_between hkey]
        show (c.read (c.write b)).map _ = _
        rw [c.read_write]
        rfl

/-- A member that must be one word. -/
def literal (m : Members α) (key word : JsString) (h : key ∉ m.keys) : Members α where
  keys := m.keys ++ [key]
  write a := m.write a ++ [(key, .str word)]
  read entries :=
    match entries.lookup key with
    | some (.str s) => if s = word then m.read entries else none
    | _ => none
  keys_write a entry he := by
    rcases List.mem_append.mp he with he | he
    · exact List.mem_append_left _ (m.keys_write a entry he)
    · exact List.mem_append_right _ (by simp [List.mem_singleton.mp he])
  read_write a before after hbefore hafter := by
    obtain ⟨⟨hb, ha⟩, hkey, hkey'⟩ := around h hbefore hafter a
    have hrest : ∀ entry ∈ (key, Json.str word) :: after, entry.1 ∉ m.keys := by
      intro e he
      rcases List.mem_cons.mp he with rfl | he
      · exact h
      · exact ha e he
    have hshape : before ++ (m.write a ++ [(key, .str word)]) ++ after =
        before ++ m.write a ++ (key, .str word) :: after := by simp
    rw [hshape, lookup_between hkey]
    show (if word = word then m.read _ else _) = _
    rw [if_pos rfl, m.read_write a before _ hb hrest]

/-- `z.object(members).strict()`. -/
def strict (m : Members α) : Codec α where
  write a := .obj (m.write a)
  read
    | .obj entries => if entries.all fun entry => entry.1 ∈ m.keys then m.read entries else none
    | _ => none
  read_write a := by
    have hkeys : ((m.write a).all fun entry => entry.1 ∈ m.keys) = true :=
      List.all_eq_true.mpr fun entry he => by simpa using m.keys_write a entry he
    show (if ((m.write a).all fun entry => entry.1 ∈ m.keys) = true then m.read (m.write a)
      else none) = some a
    rw [if_pos hkeys, m.read_write_self]

/-! ## Discriminated unions -/

/-- Whatever is read has this word under the key. -/
def Demands (m : Members α) (key word : JsString) : Prop :=
  ∀ entries a, m.read entries = some a → entries.lookup key = some (.str word)

theorem demands_literal {m : Members α} {key word : JsString} {h : key ∉ m.keys} :
    (m.literal key word h).Demands key word := by
  intro entries a hread
  change (match entries.lookup key with
    | some (.str s) => if s = word then m.read entries else none
    | _ => none) = some a at hread
  split at hread
  · next s hs =>
      split at hread
      · next heq => rw [hs, heq]
      · cases hread
  · cases hread

theorem Demands.required {m : Members α} {key word other : JsString} {c : Codec β}
    {h : other ∉ m.keys} (hm : m.Demands key word) :
    (m.required other c h).Demands key word := by
  intro entries ab hread
  change ((m.read entries).bind fun a => _) = some ab at hread
  obtain ⟨a, ha, -⟩ := Option.bind_eq_some_iff.mp hread
  exact hm entries a ha

theorem Demands.optional {m : Members α} {key word other : JsString} {c : Codec β}
    {h : other ∉ m.keys} (hm : m.Demands key word) :
    (m.optional other c h).Demands key word := by
  intro entries ab hread
  change ((m.read entries).bind fun a => _) = some ab at hread
  obtain ⟨a, ha, -⟩ := Option.bind_eq_some_iff.mp hread
  exact hm entries a ha

/-- What a strict object reads is an object with the word it demands. -/
theorem Demands.strict {m : Members α} {key word : JsString} (hm : m.Demands key word) :
    m.strict.Tagged key word := by
  intro v a hread
  cases v with
  | obj entries =>
      change (if (entries.all fun entry => entry.1 ∈ m.keys) = true then m.read entries
        else none) = some a at hread
      split at hread
      · exact ⟨entries, rfl, hm entries a hread⟩
      · cases hread
  | _ => cases hread

end Members

end SharedOS.Foundation
