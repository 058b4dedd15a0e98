import Mathlib.Data.List.Basic

/-!
# The text of a JSON value

The grammar of JSON over lists of characters. An object keeps its members in
the order of the text: the name as it decodes, and the text of the value.
-/

namespace Lib.JsonText

abbrev Text := List Char

def IsWhitespace (w : Text) : Prop := ∀ c ∈ w, c = ' ' ∨ c = '\t' ∨ c = '\n' ∨ c = '\r'

-- ---------------------------------------------------------------------------
-- Strings
-- ---------------------------------------------------------------------------

def hexValue? (c : Char) : Option Nat :=
  if c.isDigit then some (c.toNat - 48)
  else if 'a' ≤ c ∧ c ≤ 'f' then some (c.toNat - 87)
  else if 'A' ≤ c ∧ c ≤ 'F' then some (c.toNat - 55)
  else none

inductive Hex4 : Text → Nat → Prop
  | mk : hexValue? a = some i → hexValue? b = some j → hexValue? c = some k →
      hexValue? d = some l → Hex4 [a, b, c, d] (((i * 16 + j) * 16 + k) * 16 + l)

/-- The letters that follow a backslash, and what they stand for. -/
def escapes : List (Char × Char) :=
  [('\x22', '\x22'), ('\\', '\\'), ('/', '/'), ('b', '\x08'), ('f', '\x0c'), ('n', '\n'),
    ('r', '\r'), ('t', '\t')]

def IsPlain (c : Char) : Prop := c ≠ '\x22' ∧ c ≠ '\\' ∧ 0x20 ≤ c.toNat

instance : DecidablePred IsPlain := fun c =>
  inferInstanceAs (Decidable (c ≠ '\x22' ∧ c ≠ '\\' ∧ 0x20 ≤ c.toNat))

inductive StringChar : Text → Char → Prop
  | plain : IsPlain c → StringChar [c] c
  | escape : (e, c) ∈ escapes → StringChar ['\\', e] c
  | unicode : Hex4 ds c.toNat → StringChar ('\\' :: 'u' :: ds) c
  | surrogates : Hex4 ds hi → Hex4 ds' lo → 0xd800 ≤ hi → hi < 0xdc00 → 0xdc00 ≤ lo →
      lo < 0xe000 → c.toNat = 0x10000 + (hi - 0xd800) * 0x400 + (lo - 0xdc00) →
      StringChar ('\\' :: 'u' :: ds ++ '\\' :: 'u' :: ds') c

inductive StringBody : Text → Text → Prop
  | nil : StringBody [] []
  | cons : StringChar raw c → StringBody rest cs → StringBody (raw ++ rest) (c :: cs)

-- ---------------------------------------------------------------------------
-- Numbers
-- ---------------------------------------------------------------------------

def IsDigits (ds : Text) : Prop := ds ≠ [] ∧ ∀ c ∈ ds, c.isDigit = true

/-- No digit precedes a leading zero's end. -/
def IsInt (ds : Text) : Prop := IsDigits ds ∧ (ds.head? = some '0' → ds = ['0'])

def IsFraction (t : Text) : Prop := t = [] ∨ ∃ ds, t = '.' :: ds ∧ IsDigits ds

def IsExponent (t : Text) : Prop :=
  t = [] ∨ ∃ e sign ds, t = e :: sign ++ ds ∧ (e = 'e' ∨ e = 'E') ∧
    (sign = [] ∨ sign = ['+'] ∨ sign = ['-']) ∧ IsDigits ds

def IsNumber (t : Text) : Prop :=
  ∃ sign i f e, t = sign ++ i ++ f ++ e ∧ (sign = [] ∨ sign = ['-']) ∧ IsInt i ∧ IsFraction f ∧
    IsExponent e

theorem toDigits_head (n : Nat) (h : (Nat.toDigits 10 n).head? = some '0') : n = 0 := by
  induction n using Nat.strongRecOn with
  | ind n ih =>
    by_cases hn : n < 10
    · simp only [Nat.toDigits_of_lt_base hn, List.head?_cons, Option.some.injEq] at h
      exact Nat.digitChar_eq_zero.mp h
    · rw [Nat.toDigits_of_base_le (by decide) (Nat.le_of_not_lt hn),
        List.head?_append_of_ne_nil _ Nat.toDigits_ne_nil] at h
      have := ih (n / 10) (by omega) h
      omega

theorem isInt_toDigits (n : Nat) : IsInt (Nat.toDigits 10 n) := by
  refine ⟨⟨Nat.toDigits_ne_nil, fun c hc => ?_⟩, fun h => ?_⟩
  · exact Nat.isDigit_of_mem_toDigits (by decide) (by decide) hc
  · rw [toDigits_head n h, Nat.toDigits_zero]

-- ---------------------------------------------------------------------------
-- Values
-- ---------------------------------------------------------------------------

section
variable (V : Text → Prop)

inductive IsElements : Text → Prop
  | one : IsWhitespace w → V v → IsWhitespace w' → IsElements (w ++ v ++ w')
  | cons : IsWhitespace w → V v → IsWhitespace w' → IsElements rest →
      IsElements (w ++ v ++ w' ++ ',' :: rest)

/-- One member: its name as it decodes, and the text of its value. -/
inductive Member : Text → Text → Text → Prop
  | mk : IsWhitespace w₁ → StringBody raw name → IsWhitespace w₂ → IsWhitespace w₃ → V v →
      IsWhitespace w₄ →
      Member (w₁ ++ '\x22' :: raw ++ '\x22' :: w₂ ++ ':' :: w₃ ++ v ++ w₄) name v

inductive Members : Text → List (Text × Text) → Prop
  | one : Member V t name v → Members t [(name, v)]
  | cons : Member V t name v → Members rest members →
      Members (t ++ ',' :: rest) ((name, v) :: members)

end

inductive IsValue : Text → Prop
  | null : IsValue "null".toList
  | true : IsValue "true".toList
  | false : IsValue "false".toList
  | number : IsNumber t → IsValue t
  | string : StringBody raw s → IsValue ('\x22' :: raw ++ ['\x22'])
  | emptyArray : IsWhitespace w → IsValue ('[' :: w ++ [']'])
  | array : IsElements IsValue t → IsValue ('[' :: t ++ [']'])
  | emptyObject : IsWhitespace w → IsValue ('\x7b' :: w ++ ['\x7d'])
  | object : Members IsValue t members → IsValue ('\x7b' :: t ++ ['\x7d'])

def IsObject (t : Text) (members : List (Text × Text)) : Prop :=
  ∃ w inner w', t = w ++ '\x7b' :: inner ++ '\x7d' :: w' ∧ IsWhitespace w ∧ IsWhitespace w' ∧
    ((IsWhitespace inner ∧ members = []) ∨ Members IsValue inner members)

-- ---------------------------------------------------------------------------
-- Writing members
-- ---------------------------------------------------------------------------

theorem isWhitespace_nil : IsWhitespace [] := nofun

theorem StringBody.of_plain (h : ∀ c ∈ s, IsPlain c) : StringBody s s := by
  induction s with
  | nil => exact .nil
  | cons c cs ih => exact .cons (.plain (h c (by simp))) (ih fun c' hc => h c' (by simp [hc]))

def memberText (m : Text × Text) : Text := '\x22' :: m.1 ++ '\x22' :: ':' :: m.2

@[simp] theorem length_memberText (m : Text × Text) :
    (memberText m).length = m.1.length + m.2.length + 3 := by
  simp only [memberText, List.cons_append, List.length_cons, List.length_append]
  omega

theorem Member.of_plain (hname : ∀ c ∈ m.1, IsPlain c) (hv : V m.2) :
    Member V (memberText m) m.1 m.2 := by
  have h := Member.mk isWhitespace_nil (StringBody.of_plain hname) isWhitespace_nil
    isWhitespace_nil hv isWhitespace_nil
  simpa [memberText] using h

theorem Members.of_plain (h : ∀ m' ∈ m :: members, (∀ c ∈ m'.1, IsPlain c) ∧ V m'.2) :
    Members V (memberText m ++ members.flatMap fun m' => ',' :: memberText m') (m :: members) := by
  induction members generalizing m with
  | nil =>
    obtain ⟨hname, hv⟩ := h m (by simp)
    simpa using Members.one (Member.of_plain hname hv)
  | cons m' members ih =>
    obtain ⟨hname, hv⟩ := h m (by simp)
    have hrest := ih fun m'' hm => h m'' (List.mem_cons_of_mem _ hm)
    exact .cons (Member.of_plain hname hv) hrest

-- ---------------------------------------------------------------------------
-- Lengths
-- ---------------------------------------------------------------------------

theorem StringChar.length (h : StringChar raw c) :
    1 ≤ raw.length ∧ (raw.length = 1 → IsPlain c) := by
  cases h with
  | plain hc => exact ⟨Nat.le_refl _, fun _ => hc⟩
  | escape => exact ⟨by simp, by simp⟩
  | unicode hd => exact ⟨by simp, by simp⟩
  | surrogates hd hd' =>
    refine ⟨by simp, fun h => ?_⟩
    simp only [List.cons_append, List.length_cons, List.length_append] at h
    omega

theorem StringBody.length (h : StringBody raw s) :
    s.length ≤ raw.length ∧ (s.length = raw.length → ∀ c ∈ s, IsPlain c) := by
  induction h with
  | nil => exact ⟨Nat.le_refl _, fun _ => nofun⟩
  | cons hc _ ih =>
    obtain ⟨hle, hplain⟩ := hc.length
    simp only [List.length_cons, List.length_append, List.mem_cons, forall_eq_or_imp]
    exact ⟨by omega, fun heq => ⟨hplain (by omega), ih.2 (by omega)⟩⟩

variable {V : Text → Prop}

theorem Member.length (h : Member V t name v) :
    name.length + v.length + 3 ≤ t.length ∧
      (name.length + v.length + 3 = t.length → ∀ c ∈ name, IsPlain c) := by
  cases h with
  | mk _ hs _ _ _ _ =>
    obtain ⟨hle, hplain⟩ := hs.length
    simp only [List.length_append, List.length_cons]
    exact ⟨by omega, fun heq => hplain (by omega)⟩

def weight : List (Text × Text) → Nat
  | [] => 0
  | m :: members => m.1.length + m.2.length + 4 + weight members

theorem Members.length (h : Members V t members) :
    weight members ≤ t.length + 1 ∧
      (weight members = t.length + 1 → ∀ m ∈ members, ∀ c ∈ m.1, IsPlain c) := by
  induction h with
  | one hm =>
    obtain ⟨hle, hplain⟩ := hm.length
    simp only [weight, List.mem_singleton, forall_eq]
    exact ⟨by omega, fun heq => hplain (by omega)⟩
  | cons hm _ ih =>
    obtain ⟨hle, hplain⟩ := hm.length
    simp only [weight, List.length_append, List.length_cons, List.mem_cons, forall_eq_or_imp]
    exact ⟨by omega, fun heq => ⟨hplain (by omega), ih.2 (by omega)⟩⟩

@[simp] theorem weight_cons (m : Text × Text) (members : List (Text × Text)) :
    weight (m :: members) = m.1.length + m.2.length + 4 + weight members := rfl

theorem length_flatMap_memberText (members : List (Text × Text)) :
    (members.flatMap fun m => ',' :: memberText m).length = weight members := by
  induction members with
  | nil => rfl
  | cons m members ih =>
    rw [List.flatMap_cons, List.length_append, List.length_cons, length_memberText, ih,
      weight_cons]

theorem weight_perm (h : members.Perm members') : weight members = weight members' := by
  induction h with
  | nil => rfl
  | cons m _ ih => rw [weight_cons, weight_cons, ih]
  | swap m m' members =>
    simp only [weight_cons]
    omega
  | trans _ _ ih ih' => exact ih.trans ih'

/-- An object that takes up no more than its members do escapes nothing in
their names. -/
theorem IsObject.plain (h : IsObject t members) (hlength : t.length ≤ weight members + 1) :
    ∀ m ∈ members, ∀ c ∈ m.1, IsPlain c := by
  obtain ⟨w, inner, w', rfl, -, -, ⟨-, rfl⟩ | hm⟩ := h
  · exact nofun
  · obtain ⟨hle, hplain⟩ := hm.length
    simp only [List.length_append, List.length_cons] at hlength
    exact hplain (by omega)

end Lib.JsonText
