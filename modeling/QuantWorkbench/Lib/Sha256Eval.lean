import QuantWorkbench.Lib.Sha256

/-!
SHA-256 on natural numbers, with every word computed before it is used. It agrees with
the digest on machine words, and the kernel evaluates it on many messages.
-/

namespace QuantWorkbench.Lib.Sha256

/-- The number is a literal when the continuation gets it. -/
def computed {α : Type*} (n : ℕ) (use : ℕ → α) : α :=
  match n with
  | 0 => use 0
  | m + 1 => use (m + 1)

@[simp] theorem computed_eq {α : Type*} (n : ℕ) (use : ℕ → α) : computed n use = use n := by
  cases n with
  | zero => rfl
  | succ m => rfl

structure NatState where
  a : ℕ
  b : ℕ
  c : ℕ
  d : ℕ
  e : ℕ
  f : ℕ
  g : ℕ
  h : ℕ

def State.toNat (s : State) : NatState :=
  ⟨s.a.toNat, s.b.toNat, s.c.toNat, s.d.toNat, s.e.toNat, s.f.toNat, s.g.toNat, s.h.toNat⟩

def rotateRightNat (x n : ℕ) : ℕ :=
  Nat.lor (Nat.shiftRight x n) (Nat.mod (Nat.shiftLeft x (Nat.sub 32 n)) 4294967296)

def xorNat (a b c : ℕ) : ℕ := Nat.xor (Nat.xor a b) c

theorem rotateRight_toNat {x n : UInt32} (h : 0 < n.toNat) (h' : n.toNat < 32) :
    (rotateRight x n).toNat = rotateRightNat x.toNat n.toNat := by
  have hsub : (32 - n).toNat = 32 - n.toNat := by
    rw [UInt32.toNat_sub_of_le]
    · rfl
    · rw [UInt32.le_iff_toNat_le]
      exact h'.le
  rw [rotateRight, UInt32.toNat_or, UInt32.toNat_shiftRight, UInt32.toNat_shiftLeft, hsub,
    Nat.mod_eq_of_lt h', Nat.mod_eq_of_lt (show 32 - n.toNat < 32 by omega)]
  rfl

def addNat (a b : ℕ) : ℕ := Nat.mod (Nat.add a b) 4294967296

theorem add_toNat (x y : UInt32) : (x + y).toNat = addNat x.toNat y.toNat := UInt32.toNat_add x y

theorem xor_toNat (x y z : UInt32) :
    (x ^^^ y ^^^ z).toNat = xorNat x.toNat y.toNat z.toNat := by
  rw [UInt32.toNat_xor, UInt32.toNat_xor]
  rfl

def roundNat : NatState → ℕ → ℕ → NatState
  | ⟨a, b, c, d, e, f, g, h⟩, constant, word =>
      let big1 := xorNat (rotateRightNat e 6) (rotateRightNat e 11) (rotateRightNat e 25)
      let choice := Nat.xor (Nat.land e f) (Nat.land (Nat.sub 4294967295 e) g)
      computed (addNat (addNat (addNat (addNat h big1) choice) constant) word) fun t1 =>
      let big0 := xorNat (rotateRightNat a 2) (rotateRightNat a 13) (rotateRightNat a 22)
      let majority := xorNat (Nat.land a b) (Nat.land a c) (Nat.land b c)
      computed (addNat t1 (addNat big0 majority)) fun newA =>
      computed (addNat d t1) fun newE =>
        ⟨newA, a, b, c, newE, e, f, g⟩

theorem round_toNat (s : State) (input : UInt32 × UInt32) :
    (round s input).toNat = roundNat s.toNat input.1.toNat input.2.toNat := by
  have hchoice : ((s.e &&& s.f) ^^^ (~~~s.e &&& s.g)).toNat =
      Nat.xor (Nat.land s.e.toNat s.f.toNat) (Nat.land (Nat.sub 4294967295 s.e.toNat) s.g.toNat) := by
    rw [UInt32.toNat_xor, UInt32.toNat_and, UInt32.toNat_and, UInt32.toNat_not]
    rfl
  simp only [round, State.toNat, roundNat, computed_eq, add_toNat, hchoice, xor_toNat,
    UInt32.toNat_and, rotateRight_toNat (show 0 < (6 : UInt32).toNat by decide) (by decide),
    rotateRight_toNat (show 0 < (11 : UInt32).toNat by decide) (by decide),
    rotateRight_toNat (show 0 < (25 : UInt32).toNat by decide) (by decide),
    rotateRight_toNat (show 0 < (2 : UInt32).toNat by decide) (by decide),
    rotateRight_toNat (show 0 < (13 : UInt32).toNat by decide) (by decide),
    rotateRight_toNat (show 0 < (22 : UInt32).toNat by decide) (by decide)]
  rfl

/-- Sixteen words of the schedule, from the next one on. -/
structure Window where
  w0 : ℕ
  w1 : ℕ
  w2 : ℕ
  w3 : ℕ
  w4 : ℕ
  w5 : ℕ
  w6 : ℕ
  w7 : ℕ
  w8 : ℕ
  w9 : ℕ
  w10 : ℕ
  w11 : ℕ
  w12 : ℕ
  w13 : ℕ
  w14 : ℕ
  w15 : ℕ

def nextWord (w0 w1 w9 w14 : ℕ) : ℕ :=
  let small0 := xorNat (rotateRightNat w1 7) (rotateRightNat w1 18) (Nat.shiftRight w1 3)
  let small1 := xorNat (rotateRightNat w14 17) (rotateRightNat w14 19) (Nat.shiftRight w14 10)
  addNat (addNat (addNat small1 w9) small0) w0

def roundsNat : List ℕ → Window → NatState → NatState
  | [], _, s => s
  | constant :: constants,
      ⟨w0, w1, w2, w3, w4, w5, w6, w7, w8, w9, w10, w11, w12, w13, w14, w15⟩, s =>
      computed (nextWord w0 w1 w9 w14) fun w16 =>
        roundsNat constants
          ⟨w1, w2, w3, w4, w5, w6, w7, w8, w9, w10, w11, w12, w13, w14, w15, w16⟩
          (roundNat s constant w0)

def scheduleStep (w : Array UInt32) (t : ℕ) : Array UInt32 :=
  let x := w.getD (t + 1) 0
  let y := w.getD (t + 14) 0
  let small0 := rotateRight x 7 ^^^ rotateRight x 18 ^^^ (x >>> 3)
  let small1 := rotateRight y 17 ^^^ rotateRight y 19 ^^^ (y >>> 10)
  w.push (small1 + w.getD (t + 9) 0 + small0 + w.getD t 0)

def partialSchedule (block : List UInt32) (steps : ℕ) : Array UInt32 :=
  (List.range steps).foldl scheduleStep block.toArray

theorem partialSchedule_succ (block : List UInt32) (steps : ℕ) :
    partialSchedule block (steps + 1) = scheduleStep (partialSchedule block steps) steps := by
  rw [partialSchedule, List.range_succ, List.foldl_append]
  rfl

theorem size_partialSchedule {block : List UInt32} (h : block.length = 16) (steps : ℕ) :
    (partialSchedule block steps).size = steps + 16 := by
  induction steps with
  | zero => simpa [partialSchedule] using h
  | succ steps ih =>
      rw [partialSchedule_succ, scheduleStep, Array.size_push, ih, Nat.add_right_comm]

theorem getD_push (words : Array UInt32) (word : UInt32) {i : ℕ} (h : i < words.size) :
    (words.push word).getD i 0 = words.getD i 0 := by
  rw [Array.getD, Array.getD, dif_pos h, dif_pos (by rw [Array.size_push]; omega)]
  exact Array.getElem_push_lt h

/-- A word stays once it is there. -/
theorem getD_partialSchedule {block : List UInt32} (h : block.length = 16) {steps later i : ℕ}
    (hle : steps ≤ later) (hi : i < steps + 16) :
    (partialSchedule block later).getD i 0 = (partialSchedule block steps).getD i 0 := by
  induction later, hle using Nat.le_induction with
  | base => rfl
  | succ later hle ih =>
      have hsize := size_partialSchedule h later
      rw [partialSchedule_succ, scheduleStep, getD_push _ _ (by omega), ih]

def windowAt (words : Array UInt32) (t : ℕ) : Window :=
  let w := fun i => (words.getD (t + i) 0).toNat
  ⟨w 0, w 1, w 2, w 3, w 4, w 5, w 6, w 7, w 8, w 9, w 10, w 11, w 12, w 13, w 14, w 15⟩

theorem nextWord_toNat (words : Array UInt32) (t : ℕ) (h : words.size = t + 16) :
    ((scheduleStep words t).getD (t + 16) 0).toNat =
      nextWord (words.getD t 0).toNat (words.getD (t + 1) 0).toNat (words.getD (t + 9) 0).toNat
        (words.getD (t + 14) 0).toNat := by
  have hlast : ∀ word : UInt32, (words.push word).getD (t + 16) 0 = word := by
    intro word
    rw [← h, Array.getD, dif_pos (by rw [Array.size_push]; omega)]
    exact Array.getElem_push_eq
  rw [scheduleStep, hlast]
  simp only [nextWord, add_toNat, xor_toNat, UInt32.toNat_shiftRight,
    rotateRight_toNat (show 0 < (7 : UInt32).toNat by decide) (by decide),
    rotateRight_toNat (show 0 < (18 : UInt32).toNat by decide) (by decide),
    rotateRight_toNat (show 0 < (17 : UInt32).toNat by decide) (by decide),
    rotateRight_toNat (show 0 < (19 : UInt32).toNat by decide) (by decide)]
  rfl

theorem windowAt_succ {block : List UInt32} (h : block.length = 16) (t : ℕ) :
    windowAt (partialSchedule block (t + 1)) (t + 1) =
      match windowAt (partialSchedule block t) t with
      | ⟨w0, w1, w2, w3, w4, w5, w6, w7, w8, w9, w10, w11, w12, w13, w14, w15⟩ =>
          ⟨w1, w2, w3, w4, w5, w6, w7, w8, w9, w10, w11, w12, w13, w14, w15,
            nextWord w0 w1 w9 w14⟩ := by
  have hold : ∀ i < 15, (partialSchedule block (t + 1)).getD (t + 1 + i) 0 =
      (partialSchedule block t).getD (t + (i + 1)) 0 := by
    intro i hi
    rw [show t + 1 + i = t + (i + 1) by omega]
    exact getD_partialSchedule h (Nat.le_succ t) (by omega)
  have hnew := nextWord_toNat (partialSchedule block t) t (size_partialSchedule h t)
  rw [← partialSchedule_succ] at hnew
  simp only [windowAt, hold 0 (by omega), hold 1 (by omega), hold 2 (by omega), hold 3 (by omega),
    hold 4 (by omega), hold 5 (by omega), hold 6 (by omega), hold 7 (by omega),
    hold 8 (by omega), hold 9 (by omega), hold 10 (by omega), hold 11 (by omega),
    hold 12 (by omega), hold 13 (by omega), hold 14 (by omega)]
  congr 1

theorem roundsNat_eq {block : List UInt32} (h : block.length = 16) (constants : List UInt32) :
    ∀ (t : ℕ) (s : State), t + constants.length = 64 →
      roundsNat (constants.map UInt32.toNat) (windowAt (partialSchedule block t) t) s.toNat =
        ((constants.zip ((schedule block).toList.drop t)).foldl round s).toNat := by
  induction constants with
  | nil => exact fun _ _ _ => rfl
  | cons constant rest ih =>
      intro t s ht
      rw [List.length_cons] at ht
      have hsize : (schedule block).toList.length = 64 := size_partialSchedule h 48
      have hlt : t < (schedule block).toList.length := by omega
      have hword : (schedule block).toList[t] = (partialSchedule block t).getD t 0 := by
        have hmax := getD_partialSchedule h (le_max_left t 48) (show t < t + 16 by omega)
        have hschedule := getD_partialSchedule h (le_max_right t 48) (show t < 48 + 16 by omega)
        rw [← hmax, hschedule, Array.getD, dif_pos (by rw [size_partialSchedule h]; omega)]
        rfl
      rw [List.drop_eq_getElem_cons hlt,
        List.zip_cons_cons, List.foldl_cons, ← ih (t + 1) _ (by omega), hword, windowAt_succ h,
        List.map_cons, round_toNat]
      simp only [roundsNat, windowAt, computed_eq, Nat.add_zero]

def constantsNat : List ℕ := roundConstants.map UInt32.toNat

def compressNat (s : NatState) : List ℕ → NatState
  | [w0, w1, w2, w3, w4, w5, w6, w7, w8, w9, w10, w11, w12, w13, w14, w15] =>
      match roundsNat constantsNat
          ⟨w0, w1, w2, w3, w4, w5, w6, w7, w8, w9, w10, w11, w12, w13, w14, w15⟩ s with
      | ⟨a, b, c, d, e, f, g, h⟩ =>
          computed (addNat s.a a) fun a => computed (addNat s.b b) fun b =>
          computed (addNat s.c c) fun c => computed (addNat s.d d) fun d =>
          computed (addNat s.e e) fun e => computed (addNat s.f f) fun f =>
          computed (addNat s.g g) fun g => computed (addNat s.h h) fun h =>
            ⟨a, b, c, d, e, f, g, h⟩
  | _ => s

theorem compress_toNat (s : State) {block : List UInt32} (h : block.length = 16) :
    (compress s block).toNat = compressNat s.toNat (block.map UInt32.toNat) := by
  have hrounds := roundsNat_eq h roundConstants 0 s rfl
  rw [List.drop_zero] at hrounds
  match block, h with
  | [w0, w1, w2, w3, w4, w5, w6, w7, w8, w9, w10, w11, w12, w13, w14, w15], _ =>
      simp only [compress, compressNat, List.map_cons, List.map_nil, constantsNat]
      have hwindow : windowAt (partialSchedule [w0, w1, w2, w3, w4, w5, w6, w7, w8, w9, w10, w11,
          w12, w13, w14, w15] 0) 0 = ⟨w0.toNat, w1.toNat, w2.toNat, w3.toNat, w4.toNat, w5.toNat,
            w6.toNat, w7.toNat, w8.toNat, w9.toNat, w10.toNat, w11.toNat, w12.toNat, w13.toNat,
            w14.toNat, w15.toNat⟩ := rfl
      rw [← hwindow, hrounds]
      simp only [State.toNat, computed_eq, add_toNat]

def shiftedNat (byte : UInt8) (bits : ℕ) : ℕ :=
  Nat.mod (Nat.shiftLeft byte.toNat bits) 4294967296

/-- Big-endian words as numbers. -/
def wordsNat : List UInt8 → List ℕ
  | a :: b :: c :: d :: rest =>
      computed (Nat.lor (Nat.lor (Nat.lor (shiftedNat a 24) (shiftedNat b 16)) (shiftedNat c 8))
        d.toNat) (· :: wordsNat rest)
  | _ => []

theorem words_toNat : ∀ message : List UInt8, (words message).map UInt32.toNat = wordsNat message
  | a :: b :: c :: d :: rest => by
      rw [words, wordsNat, computed_eq, List.map_cons, words_toNat rest]
      simp only [UInt32.toNat_or, UInt32.toNat_shiftLeft, UInt8.toNat_toUInt32]
      rfl
  | [] => rfl
  | [_] => rfl
  | [_, _] => rfl
  | [_, _, _] => rfl

/-- The eight words of the digest. -/
def hashNat (message : List UInt8) : NatState :=
  let input := wordsNat (pad message)
  (List.range (input.length / 16)).foldl
    (fun s i => compressNat s ((input.drop (16 * i)).take 16)) State.initial.toNat

theorem hash_toNat (message : List UInt8) :
    (hash message).map UInt32.toNat =
      [(hashNat message).a, (hashNat message).b, (hashNat message).c, (hashNat message).d,
        (hashNat message).e, (hashNat message).f, (hashNat message).g, (hashNat message).h] := by
  have hblocks : ∀ (input : List UInt32) (blocks : List ℕ) (s : State),
      (∀ i ∈ blocks, 16 * i + 16 ≤ input.length) →
      (blocks.foldl (fun s i => compress s ((input.drop (16 * i)).take 16)) s).toNat =
        blocks.foldl (fun s i => compressNat s
          (((input.map UInt32.toNat).drop (16 * i)).take 16)) s.toNat := by
    intro input blocks
    induction blocks with
    | nil => exact fun _ _ => rfl
    | cons i rest ih =>
        intro s hin
        have hlength : ((input.drop (16 * i)).take 16).length = 16 := by
          have := hin i List.mem_cons_self
          rw [List.length_take, List.length_drop]
          omega
        rw [List.foldl_cons, ih _ fun j hj => hin j (List.mem_cons_of_mem _ hj),
          compress_toNat s hlength, List.foldl_cons, List.map_take, List.map_drop]
  have hall := hblocks (words (pad message)) (List.range ((words (pad message)).length / 16))
    State.initial (by
      intro i hi
      have := List.mem_range.mp hi
      omega)
  have hlength : (wordsNat (pad message)).length = (words (pad message)).length := by
    rw [← words_toNat, List.length_map]
  rw [hashNat, hlength, ← words_toNat, ← hall]
  rfl

def hexWordNat (word : ℕ) : Text :=
  (List.range 8).map fun i => Nat.digitChar (word / 16 ^ (7 - i) % 16)

/-- The digest, computed on numbers. -/
def hexdigestNat (message : List UInt8) : Text :=
  let s := hashNat message
  [s.a, s.b, s.c, s.d, s.e, s.f, s.g, s.h].flatMap hexWordNat

theorem hexdigest_toNat (message : List UInt8) : hexdigest message = hexdigestNat message := by
  rw [hexdigestNat, ← hash_toNat, List.flatMap_map]
  rfl

theorem ofText_toNat (text : Text) : ofText text = hexdigestNat text.utf8 := hexdigest_toNat _

/-! ### Different digests -/

theorem hexWord_injective : Function.Injective hexWord := by
  have hdigit : ∀ a < 16, ∀ b < 16, Nat.digitChar a = Nat.digitChar b → a = b := by decide
  intro x y h
  have hplace : ∀ i < 8, x.toNat / 16 ^ (7 - i) % 16 = y.toNat / 16 ^ (7 - i) % 16 := by
    intro i hi
    apply hdigit _ (Nat.mod_lt _ (by decide)) _ (Nat.mod_lt _ (by decide))
    exact List.map_inj_left.mp h i (List.mem_range.mpr hi)
  have h0 := hplace 0 (by omega)
  have h1 := hplace 1 (by omega)
  have h2 := hplace 2 (by omega)
  have h3 := hplace 3 (by omega)
  have h4 := hplace 4 (by omega)
  have h5 := hplace 5 (by omega)
  have h6 := hplace 6 (by omega)
  have h7 := hplace 7 (by omega)
  have hx := x.toNat_lt
  have hy := y.toNat_lt
  norm_num at h0 h1 h2 h3 h4 h5 h6 h7
  apply UInt32.toNat_inj.mp
  omega

/-- Digests that begin alike have the same first word. -/
theorem first_eq_of_take {message other : List UInt8} {n : ℕ} (hn : 8 ≤ n)
    (h : (hexdigest message).take n = (hexdigest other).take n) :
    (hashNat message).a = (hashNat other).a := by
  have hfirst : ∀ m, ∃ word rest, hexdigest m = hexWord word ++ rest ∧
      word.toNat = (hashNat m).a := by
    intro m
    have hwords := hash_toNat m
    cases hhash : hash m with
    | nil =>
        rw [hhash] at hwords
        cases hwords
    | cons word rest =>
        rw [hhash, List.map_cons, List.cons.injEq] at hwords
        exact ⟨word, rest.flatMap hexWord, by rw [hexdigest, hhash]; rfl, hwords.1⟩
  have hlength : ∀ word : UInt32, (hexWord word).length = 8 := by simp [hexWord]
  have hstart : ∀ (word : UInt32) (rest : Text), ((hexWord word ++ rest).take n).take 8 =
      hexWord word := by
    intro word rest
    rw [List.take_take, Nat.min_eq_left hn, List.take_left' (hlength word)]
  obtain ⟨word, rest, hmessage, hword⟩ := hfirst message
  obtain ⟨word', rest', hother, hword'⟩ := hfirst other
  have heq : hexWord word = hexWord word' := by
    rw [← hstart word rest, ← hstart word' rest', ← hmessage, ← hother, h]
  rw [← hword, ← hword', hexWord_injective heq]

/-- The values of a function are different; each is computed once. -/
def computedNodup (f : ℕ → ℕ) : List ℕ → List ℕ → Bool
  | _, [] => true
  | seen, n :: rest =>
      computed (f n) fun value => !seen.contains value && computedNodup f (value :: seen) rest

theorem nodup_of_computedNodup {f : ℕ → ℕ} :
    ∀ {seen ns : List ℕ}, computedNodup f seen ns = true →
      (ns.map f).Nodup ∧ ∀ value ∈ ns.map f, value ∉ seen
  | _, [], _ => ⟨List.nodup_nil, fun _ hmem => absurd hmem List.not_mem_nil⟩
  | seen, n :: rest, h => by
      rw [computedNodup, computed_eq, Bool.and_eq_true] at h
      obtain ⟨hnew, hrest⟩ := h
      obtain ⟨hnodup, hunseen⟩ := nodup_of_computedNodup hrest
      rw [List.map_cons]
      refine ⟨List.nodup_cons.mpr ⟨?_, hnodup⟩, ?_⟩
      · intro hmem
        exact hunseen _ hmem List.mem_cons_self
      · intro value hvalue
        rcases List.mem_cons.mp hvalue with rfl | hvalue
        · simpa using hnew
        · exact fun hseen => hunseen value hvalue (List.mem_cons_of_mem _ hseen)

end QuantWorkbench.Lib.Sha256
