import Carousel.Config.Reader
import Carousel.Proofs.Numeral

/-! # Configuration text

The text of a configuration is an object. `Document` is an object as it may be written: any members
with plain keys and numbers of 64 bits as values, in any order, with any blanks between its tokens.
Reading it looks for the members with the key `capacity` and passes over all others, so what comes
of it depends on the values of the former alone (`Member.capacities`): none is the default, one is
the capacity, and more do not fit (`Config.ofJson_text`).

The text that a configuration is written as is a document with that one member, so that it reads
back as it was (`Config.text_read_by_name`). -/

namespace Carousel

open Json

/-! ### Documents -/

/-- Blanks between two tokens. -/
def Blanks := { text : List Char // text.all isBlank = true }

instance : Inhabited Blanks := ⟨[], rfl⟩

/-- A member of an object with a number as its value, as it is written. -/
structure Member where
  key : { text : List Char // text.all isPlain = true }
  value : UInt64
  beforeKey : Blanks := default
  beforeColon : Blanks := default
  beforeValue : Blanks := default
  behind : Blanks := default

namespace Member

/-- What stands between the opening quote of the key and the end of the value. -/
def core (m : Member) : List Char :=
  m.key.1 ++ '"' :: (m.beforeColon.1 ++ ':' :: (m.beforeValue.1 ++ Nat.toDigits 10 m.value.toNat))

def text (m : Member) : List Char := m.beforeKey.1 ++ '"' :: (m.core ++ m.behind.1)

/-- Whether this is a member that a configuration is read from. -/
def isCapacity (m : Member) : Bool := m.key.1 = "capacity".toList

/-- The values of the members with the key `capacity`, in order. -/
def capacities (members : List Member) : List UInt64 := (members.filter isCapacity).map value

/-- The capacity found once a member has been read, `found` being the one found before. -/
def tally (m : Member) (found : Option UInt64) : Except Flaw (Option UInt64) :=
  if m.isCapacity then
    if found.isSome then .error .unfit else .ok (some m.value)
  else .ok found

end Member

/-- An object as it is written; `within` stands behind its opening bracket. -/
structure Document where
  members : List Member
  before : Blanks := default
  within : Blanks := default
  behind : Blanks := default

def Document.text (d : Document) : List Char :=
  d.before.1 ++ '{' :: (d.within.1 ++
    ([','].intercalate (d.members.map Member.text) ++ '}' :: d.behind.1))

/-! ### Reading a member -/

namespace Config

theorem endsNumber_behind (blanks : Blanks) {c : Char} (hc : c = ',' ∨ c = '}')
    (rest : List Char) : EndsNumber (blanks.1 ++ c :: rest) := by
  obtain ⟨text, hblank⟩ := blanks
  cases text with
  | nil =>
      intro d hd
      cases hd
      rcases hc with rfl | rfl <;> decide
  | cons b text =>
      intro d hd
      cases hd
      have hb := List.all_eq_true.mp hblank b List.mem_cons_self
      simp only [isBlank, Bool.or_eq_true, decide_eq_true_eq] at hb
      rcases hb with ((rfl | rfl) | rfl) | rfl <;> decide

theorem readCapacity_digits (blanks : Blanks) (n : UInt64) {rest : List Char}
    (hr : EndsNumber rest) :
    readCapacity (blanks.1 ++ (Nat.toDigits 10 n.toNat ++ rest)) = .ok (n, rest) := by
  have hn : n.toNat ≤ maxWord := Nat.le_sub_one_of_lt n.toNat_lt
  have hread := readNumber_digits hn hr
  obtain ⟨c, digits, hdigits, hc, hblank⟩ := toDigits_cases n.toNat
  rw [hdigits, List.cons_append] at hread ⊢
  unfold readCapacity
  rw [skipBlank_append blanks.2, skipBlank_cons hblank]
  simp only [hc, if_true, hread]
  simp

/-- The value of a member counts if its key is `capacity`, and only once. -/
theorem readMember_core (m : Member) (found : Option UInt64) {rest : List Char}
    (hr : EndsNumber rest) :
    readMember found (m.core ++ rest) = (m.tally found).map fun found => (found, rest) := by
  have hcore : m.core ++ rest = m.key.1 ++ '"' :: (m.beforeColon.1 ++ ':' :: (m.beforeValue.1 ++
      (Nat.toDigits 10 m.value.toNat ++ rest))) := by
    simp [Member.core]
  have hcolon := expect_append m.beforeColon.2 (c := ':') rfl
    (m.beforeValue.1 ++ (Nat.toDigits 10 m.value.toNat ++ rest))
  rw [hcore]
  unfold readMember Member.tally
  rw [readText_plain m.key.2]
  by_cases hkey : m.key.1 = "capacity".toList
  · have hcapacity : m.isCapacity = true := decide_eq_true hkey
    simp only [hkey, hcapacity, if_true]
    split
    · rfl
    · rw [hcolon]
      simp only [Except.bind, readCapacity_digits m.beforeValue m.value hr, Except.map]
  · have hcapacity : m.isCapacity = false := decide_eq_false hkey
    simp only [hkey, hcapacity, if_false, Bool.false_eq_true]
    rw [hcolon]
    simp only [Except.bind, skipValue_digits m.beforeValue.2 m.value.toNat hr, Except.map]

/-! ### Reading an object -/

/-- The text of an object behind a value: the members that are left, and the closing bracket. -/
def closing : List Member → List Char → List Char
  | [], rest => '}' :: rest
  | m :: members, rest => ',' :: (m.text ++ closing members rest)

theorem endsNumber_closing (blanks : Blanks) (members : List Member) (rest : List Char) :
    EndsNumber (blanks.1 ++ closing members rest) := by
  cases members with
  | nil => exact endsNumber_behind blanks (.inr rfl) _
  | cons m members => exact endsNumber_behind blanks (.inl rfl) _

theorem length_members_le (members : List Member) (rest : List Char) :
    members.length ≤ (closing members rest).length := by
  induction members with
  | nil => exact Nat.zero_le _
  | cons m members ih =>
      simp only [closing, List.length_cons, List.length_append]
      omega

theorem text_append (m : Member) (rest : List Char) :
    m.text ++ rest = m.beforeKey.1 ++ '"' :: (m.core ++ (m.behind.1 ++ rest)) := by
  simp [Member.text]

theorem intercalate_eq_closing (m : Member) (members : List Member) (rest : List Char) :
    [','].intercalate ((m :: members).map Member.text) ++ '}' :: rest =
      m.text ++ closing members rest := by
  induction members generalizing m with
  | nil => simp [closing]
  | cons second members ih =>
      rw [closing, ← ih second]
      simp [List.intercalate]

/-- What comes of the values of the members `capacity`. -/
def settle : List UInt64 → Except Flaw (Option UInt64)
  | [] => .ok none
  | [n] => .ok (some n)
  | _ => .error .unfit

theorem settle_nil (found : Option UInt64) :
    settle (found.toList ++ Member.capacities []) = .ok found := by
  cases found <;> rfl

theorem settle_cons (found : Option UInt64) (m : Member) (members : List Member) :
    settle (found.toList ++ Member.capacities (m :: members)) =
      (m.tally found).bind fun found => settle (found.toList ++ Member.capacities members) := by
  unfold Member.tally Member.capacities
  rw [List.filter_cons]
  cases m.isCapacity with
  | false => rfl
  | true => cases found <;> rfl

/-- Behind a value, the members that are left decide with the capacity found before. -/
theorem readMembers_closing (members : List Member) {limit : Nat} (hl : members.length < limit)
    (found : Option UInt64) (blanks : Blanks) (rest : List Char) :
    readMembers limit found (blanks.1 ++ closing members rest) =
      (settle (found.toList ++ Member.capacities members)).map fun found => (found, rest) := by
  induction members generalizing limit found blanks with
  | nil =>
      obtain ⟨limit, rfl⟩ := Nat.exists_eq_add_one.mpr hl
      rw [readMembers, closing, skipBlank_append blanks.2, skipBlank_cons rfl]
      simp only [settle_nil, Except.map]
  | cons m members ih =>
      obtain ⟨limit, rfl⟩ := Nat.exists_eq_add_one.mpr (Nat.zero_lt_of_lt hl)
      have hquote : expect '"' (m.text ++ closing members rest) =
          .ok (m.core ++ (m.behind.1 ++ closing members rest)) := by
        rw [text_append, expect_append m.beforeKey.2 rfl]
      have hread := readMember_core m found (endsNumber_closing m.behind members rest)
      rw [readMembers, closing, skipBlank_append blanks.2, skipBlank_cons rfl]
      simp only [hquote, Except.bind, hread, settle_cons]
      cases m.tally found with
      | error flaw => rfl
      | ok later => exact ih (Nat.lt_of_succ_lt_succ hl) later m.behind

/-- Reading an object behind its opening bracket. -/
theorem readObject_members (members : List Member) (blanks : Blanks) (rest : List Char) :
    readObject (blanks.1 ++ ([','].intercalate (members.map Member.text) ++ '}' :: rest)) =
      (settle (Member.capacities members)).map fun found => (found, rest) := by
  unfold readObject
  cases members with
  | nil =>
      simp only [List.map_nil, List.intercalate_nil, List.nil_append]
      rw [skipBlank_append blanks.2, skipBlank_cons rfl]
      rfl
  | cons m members =>
      -- no comma stands in front of the first member, so it is read apart from the others
      rw [intercalate_eq_closing, text_append, skipBlank_append blanks.2,
        skipBlank_append m.beforeKey.2, skipBlank_cons rfl]
      have hread := readMember_core m none (endsNumber_closing m.behind members rest)
      have hlimit : members.length < (m.behind.1 ++ closing members rest).length + 1 := by
        have hle := length_members_le members rest
        simp only [List.length_append]
        omega
      have hsettle := settle_cons none m members
      rw [Option.toList_none, List.nil_append] at hsettle
      simp only [hread, hsettle]
      cases m.tally none with
      | error flaw => rfl
      | ok later => exact readMembers_closing members hlimit later m.behind rest

/-- Reading a document. -/
theorem ofJson_text (d : Document) :
    ofJson (String.ofList d.text) = (settle (Member.capacities d.members)).map fun found =>
      (found.map Config.mk).getD default := by
  have hbody : readBody d.text =
      (settle (Member.capacities d.members)).map fun found => (found, d.behind.1) := by
    unfold readBody Document.text
    rw [skipBlank_append d.before.2, skipBlank_cons rfl]
    exact readObject_members d.members d.within d.behind.1
  have hend : skipBlank d.behind.1 = [] := by
    rw [← List.append_nil d.behind.1, skipBlank_append d.behind.2]
    rfl
  unfold ofJson
  rw [String.toList_ofList, hbody]
  cases settle (Member.capacities d.members) with
  | error flaw => rfl
  | ok found => simp [Except.map, hend]

/-! ### Configurations -/

/-- The document that a configuration is written as. -/
def document (c : Config) : Document where
  members := [{ key := ⟨"capacity".toList, by decide⟩, value := c.capacity }]

theorem toJson_eq (c : Config) : c.toJson = String.ofList c.document.text := by
  apply String.toList_inj.mp
  simp [toJson, document, Document.text, Member.text, Member.core, default]

theorem ofJson_toJson (c : Config) : ofJson c.toJson = .ok c := by
  rw [toJson_eq, ofJson_text]
  rfl

theorem effectiveCapacity_eq (c : Config) :
    c.effectiveCapacity = if c.capacity = 0 then 256 else c.capacity.toNat := by
  unfold effectiveCapacity Carousel.effectiveCapacity
  simp only [← UInt64.toNat_inj]
  rfl

theorem effectiveCapacity_pos (c : Config) : 0 < c.effectiveCapacity :=
  Ring.effectiveCapacity_pos _

/-- Making a capacity effective once more changes nothing. -/
theorem effectiveCapacity_effective (c : Config) :
    Carousel.effectiveCapacity c.effectiveCapacity = c.effectiveCapacity :=
  if_neg (Nat.ne_of_gt c.effectiveCapacity_pos)

/-- **Configurations are read by name.** What a configuration is written as reads back as it was.
Of any object with plain keys and numbers of 64 bits, in any order and with any blanks between its
tokens, the members with the key `capacity` are read and no others: without one the configuration
is the default, one gives the capacity, and more than one do not fit. A capacity of zero stands
for the default, so that what is built has a positive capacity, the effective one. -/
theorem text_read_by_name :
    (∀ c : Config, ofJson c.toJson = .ok c) ∧
      (∀ d : Document, ofJson (String.ofList d.text) =
        match Member.capacities d.members with
        | [] => .ok default
        | [n] => .ok ⟨n⟩
        | _ => .error .unfit) ∧
      (default : Config) = ⟨256⟩ ∧
      ∀ c : Config, 0 < c.effectiveCapacity ∧
        c.effectiveCapacity = (if c.capacity = 0 then 256 else c.capacity.toNat) ∧
        (∀ (α : Type) [Inhabited α], (c.build : Ring α).capacity = c.effectiveCapacity) ∧
        ∀ (σ α : Type) [Inhabited α] (filter : Filter σ α),
          (c.buildStage filter).ring.capacity = c.effectiveCapacity := by
  refine ⟨ofJson_toJson, ?_, rfl, ?_⟩
  · intro d
    rw [ofJson_text]
    cases Member.capacities d.members with
    | nil => rfl
    | cons n capacities =>
        cases capacities with
        | nil => rfl
        | cons second capacities => rfl
  · intro c
    refine ⟨c.effectiveCapacity_pos, c.effectiveCapacity_eq, ?_, ?_⟩
    · intro α _
      exact (Ring.capacity_create _).trans c.effectiveCapacity_effective
    · intro σ α _ filter
      exact (Ring.capacity_create _).trans c.effectiveCapacity_effective

/-- Blanks may stand between any two tokens, and members with other keys around. -/
example :
    String.ofList (Document.text
      { members :=
          [{ key := ⟨"name".toList, by decide⟩, value := 7, beforeColon := ⟨[' '], by decide⟩ },
            { key := ⟨"capacity".toList, by decide⟩, value := 64,
              beforeKey := ⟨['\n', '\t'], by decide⟩ }]
        behind := ⟨['\n'], by decide⟩ }) =
      "\x7b\"name\" :7,\n\t\"capacity\":64\x7d\n" := by
  decide

end Config

end Carousel
