import Mathlib

/-!
# Byte codecs

A writer gives a byte string; words are little-endian. A reader takes what it reads off the
front of its input, or refuses. `Reads` says what a reader makes of what a writer wrote,
whatever follows it: the value it returns where the written value fits the limits of the
reader, and a refusal where it does not. `Yields` says what holds of every value that a reader
returns, off any input. The rules compose along the fields of a record.
-/

namespace ByteCodec

/-- A byte string. -/
abbrev Bytes := List UInt8

/-! ## Words -/

/-- The `n` low bytes of a number, least significant first. -/
def word : ℕ → ℕ → Bytes
  | 0, _ => []
  | n + 1, x => UInt8.ofNat x :: word n (x / 256)

/-- The number whose bytes are given, least significant first. -/
def ofWord : Bytes → ℕ
  | [] => 0
  | b :: bytes => b.toNat + 256 * ofWord bytes

/-- A sum or product of sizes, as a machine word of 64 bits holds it. -/
def sizeWord (n : ℕ) : ℕ := n % 2 ^ 64

@[simp] theorem length_word (n x : ℕ) : (word n x).length = n := by
  induction n generalizing x with
  | zero => rfl
  | succ n ih => simp [word, ih]

theorem ofWord_word (n x : ℕ) : ofWord (word n x) = x % 256 ^ n := by
  induction n generalizing x with
  | zero => simp [word, ofWord, Nat.mod_one]
  | succ n ih =>
    rw [word, ofWord, ih, pow_succ', Nat.mod_mul, UInt8.toNat_ofNat']

theorem ofWord_lt (bytes : Bytes) : ofWord bytes < 256 ^ bytes.length := by
  induction bytes with
  | nil => simp [ofWord]
  | cons b bytes ih =>
    have hb := b.toNat_lt
    rw [ofWord, List.length_cons, pow_succ']
    omega

theorem word_ofWord (bytes : Bytes) : word bytes.length (ofWord bytes) = bytes := by
  induction bytes with
  | nil => rfl
  | cons b bytes ih =>
    have hb := b.toNat_lt
    have hlow : UInt8.ofNat (b.toNat + 256 * ofWord bytes) = b := by
      apply UInt8.toNat_inj.mp
      rw [UInt8.toNat_ofNat']
      omega
    have hhigh : (b.toNat + 256 * ofWord bytes) / 256 = ofWord bytes := by omega
    rw [ofWord, List.length_cons, word, hlow, hhigh, ih]

/-- A word is determined by its number. -/
theorem ofWord_injective {v w : Bytes} (hlength : v.length = w.length)
    (h : ofWord v = ofWord w) : v = w := by
  rw [← word_ofWord v, ← word_ofWord w, hlength, h]

/-! ## Words in a buffer -/

/-- The number of `n` bytes at an offset. -/
def readAt (data : Bytes) (offset n : ℕ) : ℕ := ofWord ((data.drop offset).take n)

section Buffers

variable {data front tail : Bytes} {offset n x : ℕ}

theorem readAt_append (hoffset : front.length = offset) :
    readAt (front ++ (word n x ++ tail)) offset n = x % 256 ^ n := by
  have htake : (word n x ++ tail).take n = word n x := List.take_left' (length_word n x)
  rw [readAt, ← hoffset, List.drop_left, htake, ofWord_word]

/-- A word does not change with a byte outside of it. -/
theorem readAt_set {i : ℕ} (h : i < offset ∨ offset + n ≤ i) (b : UInt8) :
    readAt (data.set i b) offset n = readAt data offset n := by
  rw [readAt, readAt, List.drop_set]
  rcases h with hi | hi
  · rw [if_pos hi]
  · rw [if_neg (by omega), List.take_set_of_le (by omega)]

end Buffers

/-! ## Readers -/

/-- What reads a value off the front of its input, or refuses. -/
abbrev Reader (α : Type) := StateT Bytes Option α

variable {α β : Type}

/-- Take bytes. -/
def take (n : ℕ) : Reader Bytes := fun input =>
  if n ≤ input.length then some (input.take n, input.drop n) else none

/-- Read a number of `n` bytes. -/
def number (n : ℕ) : Reader ℕ := ofWord <$> take n

/-- Refuse unless a condition holds. -/
def check (condition : Prop) [Decidable condition] : Reader Unit :=
  if condition then pure () else failure

/-- The member of a list at a position. -/
def oneOf (all : List α) (i : ℕ) : Reader α := fun input => all[i]?.map (·, input)

/-- Read a given number of values. -/
def many (r : Reader α) : ℕ → Reader (List α)
  | 0 => pure []
  | n + 1 => do
    let a ← r
    let as ← many r n
    pure (a :: as)

/-- Read a 32-bit count, within a limit, and as many values. -/
def counted (limit : ℕ) (r : Reader α) : Reader (List α) := do
  let n ← number 4
  check (n ≤ limit)
  many r n

/-- Read a 32-bit length, within a limit, and as many bytes. -/
def string (limit : ℕ) : Reader Bytes := do
  let n ← number 4
  check (n ≤ limit)
  take n

/-- Read the whole of an input. -/
def whole (r : Reader α) (input : Bytes) : Option α :=
  match r input with
  | some (a, []) => some a
  | _ => none

/-! ## Writers -/

/-- A list behind its 32-bit count. -/
def putCounted (put : α → Bytes) (as : List α) : Bytes := word 4 as.length ++ as.flatMap put

theorem length_putCounted_le {put : α → Bytes} {as : List α} {bound : ℕ}
    (hput : ∀ a ∈ as, (put a).length ≤ bound) :
    (putCounted put as).length ≤ 4 + as.length * bound := by
  rw [putCounted, List.length_append, length_word, Nat.add_le_add_iff_left]
  induction as with
  | nil => simp
  | cons a as ih =>
    have ha := hput a List.mem_cons_self
    have hrest := ih fun b hb => hput b (List.mem_cons_of_mem a hb)
    rw [List.flatMap_cons, List.length_append, List.length_cons, Nat.succ_mul]
    omega

/-- A byte string behind its 32-bit length. -/
def putString (s : Bytes) : Bytes := word 4 s.length ++ s

theorem length_le_putCounted {put : α → Bytes} (hput : ∀ a, 0 < (put a).length) (as : List α) :
    as.length ≤ (as.flatMap put).length := by
  induction as with
  | nil => exact le_rfl
  | cons a as ih =>
    have ha := hput a
    rw [List.flatMap_cons, List.length_append, List.length_cons]
    omega

/-! ## What is read of what was written -/

/-- A count that is within a limit and that 32 bits can carry. -/
def Fits (limit n : ℕ) : Prop := n ≤ limit ∧ n < 2 ^ 32

instance (limit n : ℕ) : Decidable (Fits limit n) := inferInstanceAs (Decidable (_ ∧ _))

/-- Off an input that starts with the bytes of a value, the reader takes exactly these where
the value fits, and returns `a`. Where it does not fit, the reader refuses, as long as no
count of the value is larger than what carries it. -/
structure Reads (r : Reader α) (w : Bytes) (fits : Prop) (a : α) : Prop where
  accepts : fits → ∀ rest, r (w ++ rest) = some (a, rest)
  refuses : ¬fits → w.length < 2 ^ 32 → ∀ rest, r (w ++ rest) = none

theorem bind_apply (r : Reader α) (f : α → Reader β) (input : Bytes) :
    (r >>= f) input = (r input).bind fun e => f e.1 e.2 := rfl

namespace Reads

variable {r : Reader α} {f : α → Reader β} {w v : Bytes} {ws : List Bytes} {p q : Prop} {a : α}
  {b : β}

theorem congr (h : Reads r w p a) (hpq : p ↔ q) : Reads r w q a where
  accepts hq := h.accepts (hpq.mpr hq)
  refuses hq := h.refuses fun hp => hq (hpq.mp hp)

theorem pure (a : α) : Reads (Pure.pure a) [] True a where
  accepts _ _ := rfl
  refuses h := absurd trivial h

/-- One field after another. -/
theorem bind (h : Reads r w p a) (hf : p → Reads (f a) v q b) :
    Reads (r >>= f) (w ++ v) (p ∧ q) b where
  accepts hpq rest := by
    rw [bind_apply, List.append_assoc, h.accepts hpq.1, Option.bind_some]
    exact (hf hpq.1).accepts hpq.2 rest
  refuses hpq hlength rest := by
    rw [List.length_append] at hlength
    rw [bind_apply, List.append_assoc]
    by_cases hp : p
    · have hq : ¬q := fun hq => hpq ⟨hp, hq⟩
      rw [h.accepts hp, Option.bind_some]
      exact (hf hp).refuses hq (by omega) rest
    · rw [h.refuses hp (by omega), Option.bind_none]

/-- A field of a record that has limits. -/
theorem field (h : Reads r w p a) (hf : p → Reads (f a) ws.flatten q b) :
    Reads (r >>= f) (w :: ws).flatten (p ∧ q) b := by
  rw [List.flatten_cons]
  exact h.bind hf

/-- A field of a record that has no limits. -/
theorem next (h : Reads r w True a) (hf : Reads (f a) ws.flatten q b) :
    Reads (r >>= f) (w :: ws).flatten q b :=
  (h.field fun _ => hf).congr (by simp)

/-- The end of a record. -/
theorem done (a : α) : Reads (Pure.pure a) ([] : List Bytes).flatten True a := pure a

theorem map (h : Reads r w p a) (g : α → β) : Reads (g <$> r) w p (g a) where
  accepts hp rest := by
    change ((r (w ++ rest)).bind fun e => some (g e.1, e.2)) = _
    rw [h.accepts hp, Option.bind_some]
  refuses hp hlength rest := by
    change ((r (w ++ rest)).bind fun e => some (g e.1, e.2)) = _
    rw [h.refuses hp hlength, Option.bind_none]

theorem take (w : Bytes) : Reads (take w.length) w True w where
  accepts _ rest := by
    have hlength : w.length ≤ (w ++ rest).length := by simp
    rw [ByteCodec.take, if_pos hlength, List.take_left, List.drop_left]
  refuses h := absurd trivial h

theorem number (n x : ℕ) : Reads (number n) (word n x) True (x % 256 ^ n) := by
  have h := (take (word n x)).map ofWord
  rwa [length_word, ofWord_word] at h

theorem number_of_lt {n x : ℕ} (h : x < 256 ^ n) :
    Reads (ByteCodec.number n) (word n x) True x := by
  have hnumber := number n x
  rwa [Nat.mod_eq_of_lt h] at hnumber

/-- A condition a reader puts on what it has read. -/
theorem check (condition : Prop) [Decidable condition] :
    Reads (check condition) [] condition () where
  accepts h rest := by
    rw [ByteCodec.check, if_pos h]
    rfl
  refuses h _ rest := by
    rw [ByteCodec.check, if_neg h]
    rfl

/-- The end of a record with a condition on the whole of it. -/
theorem checked (condition : Prop) [Decidable condition] (a : α) :
    Reads (do ByteCodec.check condition; Pure.pure a) ([] : List Bytes).flatten condition a :=
  ((check condition).bind (f := fun _ => Pure.pure a) fun _ => pure a).congr (by simp)

theorem oneOf {all : List α} {i : ℕ} (h : all[i]? = some a) : Reads (oneOf all i) [] True a where
  accepts _ rest := by
    change all[i]?.map (·, rest) = _
    rw [h]
    rfl
  refuses h := absurd trivial h

theorem many {put : α → Bytes} {fits : α → Prop} {carried : α → α} {as : List α}
    (h : ∀ a ∈ as, Reads r (put a) (fits a) (carried a)) :
    Reads (many r as.length) (as.flatMap put) (∀ a ∈ as, fits a) (as.map carried) := by
  induction as with
  | nil => exact (pure []).congr (by simp)
  | cons a as ih =>
    have hhead := h a List.mem_cons_self
    have htail := ih fun b hb => h b (List.mem_cons_of_mem a hb)
    have hboth := hhead.bind (f := fun x => (x :: ·) <$> ByteCodec.many r as.length)
      fun _ => htail.map (carried a :: ·)
    exact hboth.congr (by simp)

/-- A list behind its count, of elements that may be read back as others. -/
theorem counted_map {put : α → Bytes} {fits : α → Prop} {carried : α → α} {as : List α}
    (h : ∀ a ∈ as, Reads r (put a) (fits a) (carried a)) (hput : ∀ a, 0 < (put a).length)
    (limit : ℕ) :
    Reads (counted limit r) (putCounted put as) (Fits limit as.length ∧ ∀ a ∈ as, fits a)
      (as.map carried) := by
  by_cases hcount : as.length < 2 ^ 32
  · have hnumber : Reads (ByteCodec.number 4) (word 4 as.length) True as.length :=
      number_of_lt (by simpa using hcount)
    have hcheck := (check (as.length ≤ limit)).bind
      (f := fun _ => ByteCodec.many r as.length) fun _ => many h
    have hall := hnumber.bind (f := fun n => do
      ByteCodec.check (n ≤ limit)
      ByteCodec.many r n) fun _ => hcheck
    exact hall.congr ⟨fun h => ⟨⟨h.2.1, hcount⟩, h.2.2⟩, fun h => ⟨trivial, h.1.1, h.2⟩⟩
  · refine ⟨fun hfits => absurd hfits.1.2 hcount, fun _ hlength => ?_⟩
    have hwritten := length_le_putCounted hput as
    rw [putCounted, List.length_append] at hlength
    omega

/-- A list behind its count. -/
theorem counted {put : α → Bytes} {fits : α → Prop} {as : List α}
    (h : ∀ a ∈ as, Reads r (put a) (fits a) a) (hput : ∀ a, 0 < (put a).length) (limit : ℕ) :
    Reads (counted limit r) (putCounted put as) (Fits limit as.length ∧ ∀ a ∈ as, fits a) as := by
  have hread : Reads (ByteCodec.counted limit r) (putCounted put as)
      (Fits limit as.length ∧ ∀ a ∈ as, fits a) (as.map fun a => a) :=
    counted_map h hput limit
  rwa [List.map_id'] at hread

theorem string (limit : ℕ) (s : Bytes) :
    Reads (string limit) (putString s) (Fits limit s.length) s := by
  by_cases hcount : s.length < 2 ^ 32
  · have hnumber : Reads (ByteCodec.number 4) (word 4 s.length) True s.length :=
      number_of_lt (by simpa using hcount)
    have hcheck := (check (s.length ≤ limit)).bind
      (f := fun _ => ByteCodec.take s.length) fun _ => take s
    have hall := hnumber.bind (f := fun n => do
      ByteCodec.check (n ≤ limit)
      ByteCodec.take n) fun _ => hcheck
    exact hall.congr ⟨fun h => ⟨h.2.1, hcount⟩, fun h => ⟨trivial, h.1, trivial⟩⟩
  · refine ⟨fun hfits => absurd hfits.2 hcount, fun _ hlength => ?_⟩
    rw [putString, List.length_append] at hlength
    omega

/-- The whole of what was written is read back. -/
theorem whole_eq (h : Reads r w p a) (hp : p) : whole r w = some a := by
  have hread := h.accepts hp []
  rw [List.append_nil] at hread
  rw [whole, hread]

theorem whole_eq_none (h : Reads r w p a) (hp : ¬p) (hlength : w.length < 2 ^ 32) :
    whole r w = none := by
  have hread := h.refuses hp hlength []
  rw [List.append_nil] at hread
  rw [whole, hread]

end Reads

/-! ## What a reader returns -/

/-- Whatever it is given, what a reader returns has a property. -/
def Yields (r : Reader α) (p : α → Prop) : Prop :=
  ∀ input a rest, r input = some (a, rest) → p a

namespace Yields

variable {r : Reader α} {f : α → Reader β} {p : α → Prop} {q : β → Prop}

theorem trivially (r : Reader α) : Yields r fun _ => True := fun _ _ _ _ => trivial

theorem pure {a : α} (h : p a) : Yields (Pure.pure a) p := by
  intro input b rest hread
  obtain ⟨rfl, -⟩ := Prod.mk.inj (Option.some.inj hread)
  exact h

theorem bind (h : Yields r p) (hf : ∀ a, p a → Yields (f a) q) : Yields (r >>= f) q := by
  intro input b rest hread
  rw [bind_apply, Option.bind_eq_some_iff] at hread
  obtain ⟨⟨a, middle⟩, hfirst, hrest⟩ := hread
  exact hf a (h input a middle hfirst) middle b rest hrest

/-- A field of which nothing is asked. -/
theorem next (hf : ∀ a, Yields (f a) q) : Yields (r >>= f) q :=
  (trivially r).bind fun a _ => hf a

theorem map {g : α → β} (h : Yields r p) (hg : ∀ a, p a → q (g a)) : Yields (g <$> r) q := by
  rw [map_eq_pure_bind]
  exact h.bind fun a ha => pure (hg a ha)

theorem take (n : ℕ) : Yields (take n) fun bytes => bytes.length = n := by
  intro input bytes rest hread
  unfold ByteCodec.take at hread
  split_ifs at hread with hroom
  obtain ⟨rfl, -⟩ := Prod.mk.inj (Option.some.inj hread)
  rw [List.length_take, min_eq_left hroom]

theorem number (n : ℕ) : Yields (number n) fun x => x < 256 ^ n :=
  (take n).map fun bytes hlength => hlength ▸ ofWord_lt bytes

theorem check (condition : Prop) [Decidable condition] :
    Yields (check condition) fun _ => condition := by
  intro input _ rest hread
  unfold ByteCodec.check at hread
  split_ifs at hread with h
  · exact h
  · cases hread

theorem many (h : Yields r p) (n : ℕ) :
    Yields (many r n) fun as => as.length = n ∧ ∀ a ∈ as, p a := by
  induction n with
  | zero => exact pure ⟨rfl, List.forall_mem_nil _⟩
  | succ n ih =>
    refine h.bind fun a ha => ih.bind fun as has => pure ⟨?_, ?_⟩
    · rw [List.length_cons, has.1]
    · exact List.forall_mem_cons.mpr ⟨ha, has.2⟩

theorem counted (h : Yields r p) (limit : ℕ) :
    Yields (counted limit r) fun as => Fits limit as.length ∧ ∀ a ∈ as, p a := by
  refine (number 4).bind fun n hn => (check (n ≤ limit)).bind fun _ hlimit => ?_
  rintro input as rest hread
  obtain ⟨hlength, has⟩ := h.many n input as rest hread
  rw [hlength]
  exact ⟨⟨hlimit, hn⟩, has⟩

theorem string (limit : ℕ) : Yields (string limit) fun s => Fits limit s.length := by
  refine (number 4).bind fun n hn => (check (n ≤ limit)).bind fun _ hlimit => ?_
  intro input s rest hread
  rw [take n input s rest hread]
  exact ⟨hlimit, hn⟩

end Yields

end ByteCodec
