/-!
# Random tapes

Everything random in the protocol is read from a tape: an endless sequence of
numbers together with the position of the next one.  A function that needs
chance takes a tape and gives back the tape behind the numbers it read, so its
result is determined by its arguments, and a statement about every tape is a
statement about every outcome of chance.

`Tape.ofSeed` fills a tape from a seed by mixing a counter.
-/

namespace ClusterMembership

/-- An endless sequence of numbers and the position of the next one. -/
structure Tape where
  numbers : Nat → Nat
  position : Nat := 0

instance : Inhabited Tape := ⟨{ numbers := id }⟩

namespace Tape

/-- Mix the bits of a word, so that consecutive words look unrelated. -/
def mix (word : UInt64) : UInt64 :=
  let first := (word ^^^ (word >>> 30)) * 0xbf58476d1ce4e5b9
  let second := (first ^^^ (first >>> 27)) * 0x94d049bb133111eb
  second ^^^ (second >>> 31)

/-- The tape that belongs to a seed. -/
def ofSeed (seed : Nat) : Tape where
  numbers index :=
    (mix (mix (UInt64.ofNat seed) + UInt64.ofNat (index + 1) * 0x9e3779b97f4a7c15)).toNat

/-- The next number of the tape. -/
def next (tape : Tape) : Nat × Tape :=
  (tape.numbers tape.position, { tape with position := tape.position + 1 })

/-- A number below a positive bound. -/
def below (bound : Nat) (tape : Tape) : Nat × Tape :=
  let (number, tape) := tape.next
  (number % bound, tape)

/-- A number of bytes. -/
def bytes : (count : Nat) → Tape → List UInt8 × Tape
  | 0, tape => ([], tape)
  | count + 1, tape =>
    let (number, tape) := tape.next
    let (rest, tape) := tape.bytes count
    (UInt8.ofNat number :: rest, tape)

/-- Two tapes of which neither repeats what the other reads from here on. -/
def split (tape : Tape) : Tape × Tape :=
  let (number, tape) := tape.next
  (ofSeed number, tape)

/-- Insert a value at a random place of a list. -/
def insert {α : Type} (value : α) (values : List α) (tape : Tape) : List α × Tape :=
  let (place, tape) := tape.below (values.length + 1)
  (values.take place ++ value :: values.drop place, tape)

/-- A random order of the first `count` picks from a list. -/
def pick {α : Type} : (count : Nat) → List α → Tape → List α × Tape
  | 0, _, tape => ([], tape)
  | count + 1, values, tape =>
    let (place, tape) := tape.below values.length
    match values[place]? with
    | none => ([], tape)
    | some value =>
      let (rest, tape) := tape.pick count (values.eraseIdx place)
      (value :: rest, tape)

/-- A random order of a whole list. -/
def shuffle {α : Type} (values : List α) (tape : Tape) : List α × Tape :=
  tape.pick values.length values

@[simp]
theorem length_bytes (count : Nat) (tape : Tape) : (tape.bytes count).1.length = count := by
  induction count generalizing tape with
  | zero => rfl
  | succ count step => simp [bytes, step]

/-- A random insertion adds the value and keeps all others. -/
theorem insert_perm {α : Type} (value : α) (values : List α) (tape : Tape) :
    (tape.insert value values).1.Perm (value :: values) := by
  simp only [insert]
  refine List.perm_middle.trans (List.Perm.cons value ?_)
  rw [List.take_append_drop]

/-- A list put in random order is the same list in another order. -/
theorem shuffle_perm {α : Type} (values : List α) (tape : Tape) :
    (tape.shuffle values).1.Perm values := by
  suffices general : ∀ (count : Nat) (values : List α) (tape : Tape),
      count = values.length → (tape.pick count values).1.Perm values from
    general values.length values tape rfl
  intro count
  induction count with
  | zero =>
    intro values tape empty
    rw [List.length_eq_zero_iff.1 empty.symm]
    exact .nil
  | succ count step =>
    intro values tape length
    rcases drawn : tape.below values.length with ⟨place, after⟩
    have inside : place < values.length := by
      have bounded : (tape.below values.length).1 < values.length := Nat.mod_lt _ (by omega)
      simpa [drawn] using bounded
    have shorter : count = (values.eraseIdx place).length := by
      rw [List.length_eraseIdx_of_lt inside]
      omega
    simp only [pick, drawn, List.getElem?_eq_getElem inside]
    refine ((step _ _ shorter).cons _).trans ?_
    rw [List.eraseIdx_eq_take_drop_succ]
    refine List.perm_middle.symm.trans ?_
    rw [List.getElem_cons_drop, List.take_append_drop]

end Tape

end ClusterMembership
