import PacketAuth.Key

/-! Bytes drawn from a generator. They are those of its words, one word after the other. A fill
takes whole words: what it does not use of the last one is lost to the next fill. -/
namespace PacketAuth

/-- Bytes in the place of a target, if they are as many as it has. -/
def copyOver? (target bytes : List UInt8) : Option (List UInt8) :=
  if bytes.length = target.length then some bytes else none

namespace SplitMix

/-- The word that comes after `i` others. -/
def word (g : SplitMix) (i : Nat) : UInt64 := (skip i g).next.1

/-- The bytes of the next `count` words. -/
def bytes (count : Nat) (g : SplitMix) : List UInt8 :=
  (List.range count).flatMap fun i => littleEndian (g.word i)

/-- How many words a fill takes. -/
def wordsFor (n : Nat) : Nat := (n + 7) / 8

/-- A buffer filled in its place, eight bytes at a time and what is left at the end: each chunk is
overwritten by the first bytes of one word. -/
def fillBuffer? (buffer : List UInt8) (g : SplitMix) : Option (List UInt8 × SplitMix) :=
  if buffer = [] then some ([], g)
  else do
    let chunk := buffer.take 8
    let (w, g) := g.next
    let filled ← copyOver? chunk ((littleEndian w).take chunk.length)
    let (rest, g) ← fillBuffer? (buffer.drop 8) g
    return (filled ++ rest, g)
termination_by buffer.length
decreasing_by
  rename_i some_left
  have := List.length_pos_iff.mpr some_left
  rw [List.length_drop]
  omega

theorem le_wordsFor (n : Nat) : n ≤ 8 * wordsFor n := by
  unfold wordsFor
  omega

theorem wordsFor_le {n count : Nat} (h : n ≤ 8 * count) : wordsFor n ≤ count := by
  unfold wordsFor
  omega

theorem wordsFor_add (k m : Nat) : wordsFor (8 * k + m) = k + wordsFor m := by
  unfold wordsFor
  omega

variable (g : SplitMix)

@[simp] theorem skip_zero : skip 0 g = g := rfl

theorem skip_succ (n : Nat) : skip (n + 1) g = skip n g.next.2 :=
  -- as functions: at a generator the two counters would be compared digit by digit
  have step : skip (n + 1) = fun g => skip n g.next.2 := rfl
  congrFun step g

theorem skip_add (m n : Nat) : skip (m + n) g = skip n (skip m g) := by
  induction m generalizing g with
  | zero => rw [Nat.zero_add, skip_zero]
  | succ m ih => rw [Nat.succ_add, skip_succ, skip_succ, ih]

theorem word_skip (m i : Nat) : (skip m g).word i = g.word (m + i) := by
  rw [word, word, skip_add]

@[simp] theorem bytes_zero : bytes 0 g = [] := rfl

theorem bytes_succ (count : Nat) :
    bytes (count + 1) g = littleEndian g.next.1 ++ bytes count g.next.2 := by
  simp only [bytes, List.range_succ_eq_map, List.flatMap_cons, List.flatMap_map, word, skip_zero,
    skip_succ]

@[simp] theorem bytes_length (count : Nat) : (bytes count g).length = 8 * count := by
  induction count generalizing g with
  | zero => rfl
  | succ count ih =>
    rw [bytes_succ, List.length_append, littleEndian_length, ih]
    omega

theorem bytes_add (m n : Nat) : bytes (m + n) g = bytes m g ++ bytes n (skip m g) := by
  simp only [bytes, List.range_add, List.flatMap_append, List.flatMap_map, word_skip]

/-- Behind the words that a fill takes, further ones do not show in it. -/
theorem take_bytes {n count : Nat} (h : n ≤ 8 * count) :
    (bytes count g).take n = (bytes (wordsFor n) g).take n := by
  obtain ⟨more, rfl⟩ := Nat.exists_eq_add_of_le (wordsFor_le h)
  rw [bytes_add, List.take_append_of_le_length]
  rw [bytes_length]
  exact le_wordsFor n

theorem fill_zero : fill 0 g = ([], g) := by
  rw [fill, if_pos rfl]

/-- One chunk of a fill. -/
theorem fill_of_pos {n : Nat} (h : n ≠ 0) :
    fill n g =
      ((littleEndian g.next.1).take n ++ (fill (n - 8) g.next.2).1, (fill (n - 8) g.next.2).2) := by
  rw [fill, if_neg h]

theorem fill_eq (n : Nat) :
    fill n g = ((bytes (wordsFor n) g).take n, skip (wordsFor n) g) := by
  induction n using Nat.strongRecOn generalizing g with
  | ind n ih =>
    by_cases h : n = 0
    · subst h
      exact fill_zero g
    · have words : wordsFor n = wordsFor (n - 8) + 1 := by
        unfold wordsFor
        omega
      rw [fill_of_pos g h, ih (n - 8) (by omega), words, bytes_succ, List.take_append,
        littleEndian_length, skip_succ]

theorem fill_length (n : Nat) : (fill n g).1.length = n := by
  rw [fill_eq, List.length_take, bytes_length, Nat.min_eq_left (le_wordsFor n)]

theorem fill_prefix {n m : Nat} (h : n ≤ m) : (fill n g).1 <+: (fill m g).1 := by
  rw [fill_eq, fill_eq, ← take_bytes g (Nat.le_trans h (le_wordsFor m))]
  exact List.take_prefix_take_left h

/-- A fill that uses up its words. -/
theorem fill_words (k : Nat) : fill (8 * k) g = (bytes k g, skip k g) := by
  have all : wordsFor (8 * k) = k := wordsFor_add k 0
  rw [fill_eq, all, List.take_of_length_le (Nat.le_of_eq (bytes_length g k))]

/-- Behind whole words a fill goes on as if both were one. -/
theorem fill_add (k m : Nat) :
    fill (8 * k + m) g =
      ((fill (8 * k) g).1 ++ (fill m (fill (8 * k) g).2).1, (fill m (fill (8 * k) g).2).2) := by
  rw [fill_words, fill_eq, fill_eq, wordsFor_add, bytes_add, skip_add, ← bytes_length g k,
    List.take_length_add_append]

theorem fillBuffer?_eq (buffer : List UInt8) :
    fillBuffer? buffer g = some (fill buffer.length g) := by
  induction hn : buffer.length using Nat.strongRecOn generalizing buffer g with
  | ind n ih =>
    subst hn
    by_cases h : buffer = []
    · subst h
      rw [fillBuffer?, if_pos rfl]
      exact congrArg some (fill_zero g).symm
    · have long : buffer.length ≠ 0 := fun h' => h (List.eq_nil_of_length_eq_zero h')
      have chunk : (littleEndian g.next.1).take (buffer.take 8).length =
          (littleEndian g.next.1).take buffer.length := by
        rw [List.take_eq_take_iff, List.length_take, littleEndian_length]
        omega
      have fits : ((littleEndian g.next.1).take buffer.length).length =
          (buffer.take 8).length := by
        rw [List.length_take, List.length_take, littleEndian_length, Nat.min_comm]
      have rest := ih (buffer.drop 8).length (by rw [List.length_drop]; omega) g.next.2 _ rfl
      rw [List.length_drop] at rest
      rw [fillBuffer?, if_neg h, fill_of_pos g long]
      simp only [chunk, copyOver?, if_pos fits, rest, Option.bind_eq_bind, Option.bind_some]
      rfl

end SplitMix

namespace AuthKey

theorem ofGenerator_bytes (g : SplitMix) : (ofGenerator g).1.bytes = SplitMix.bytes 4 g := by
  simp only [SplitMix.bytes_succ, SplitMix.bytes_zero, List.append_nil, ← List.append_assoc]
  rfl

theorem ofGenerator_skip (g : SplitMix) : (ofGenerator g).2 = SplitMix.skip 4 g := by
  simp only [SplitMix.skip_succ, SplitMix.skip_zero]
  rfl

theorem ofGenerator_eq_fill (g : SplitMix) :
    ((ofGenerator g).1.bytes, (ofGenerator g).2) = SplitMix.fill size g := by
  rw [ofGenerator_bytes, ofGenerator_skip]
  exact (SplitMix.fill_words g 4).symm

end AuthKey

namespace SplitMix

/-- Whatever a buffer held, a fill overwrites all of it with the first bytes of the next words, and
takes as many of them as it needs for that. A shorter fill is the beginning of a longer one, whole
words can be drawn before the rest, and a key is a fill of its size. -/
theorem fills_follow_words (g : SplitMix) :
    (∀ buffer, fillBuffer? buffer g = some (fill buffer.length g)) ∧
    (∀ n, (fill n g).1.length = n ∧ (fill n g).2 = skip ((n + 7) / 8) g ∧
      (∀ count, n ≤ 8 * count → (fill n g).1 = (bytes count g).take n) ∧
      ∀ m, n ≤ m → (fill n g).1 <+: (fill m g).1) ∧
    (∀ k m, fill (8 * k + m) g =
      ((fill (8 * k) g).1 ++ (fill m (fill (8 * k) g).2).1, (fill m (fill (8 * k) g).2).2)) ∧
    ((AuthKey.ofGenerator g).1.bytes, (AuthKey.ofGenerator g).2) = fill 32 g := by
  refine ⟨fillBuffer?_eq g, fun n => ⟨fill_length g n, ?_, fun count enough => ?_,
    fun m => fill_prefix g⟩, fill_add g, AuthKey.ofGenerator_eq_fill g⟩
  · rw [fill_eq]
    rfl
  · rw [fill_eq, take_bytes g enough]

/-- Thirteen bytes take two words, whatever stood there, and the first five of them are a fill of
five. -/
theorem thirteen_bytes_take_two_words :
    let g := ofSeed 3
    let filled := [237, 143, 1, 219, 228, 20, 11, 29, 137, 169, 129, 123, 138]
    13 ≤ 8 * 2 ∧ fillBuffer? (List.replicate 13 7) g = some (filled, ⟨3 + gamma + gamma⟩) ∧
      5 ≤ 13 ∧ (fill 5 g).1 <+: filled := by
  intro g filled
  obtain ⟨overwrites, fills, -⟩ := fills_follow_words g
  obtain ⟨-, after, first, -⟩ := fills 13
  have thirteen : fill 13 g = (filled, ⟨3 + gamma + gamma⟩) :=
    Prod.ext ((first 2 (by decide)).trans (by decide)) (after.trans (by decide))
  have five := (fills 5).2.2.2 13 (by decide)
  rw [thirteen] at five
  exact ⟨by decide, (overwrites _).trans (congrArg some thirteen), by decide, five⟩

end SplitMix
end PacketAuth
