import Mathlib.Tactic.NormNum
import Sdkd.Lib.Words
import Sdkd.NewHandle

/-!
# Collections

`Collections.cpp` and the other end of it, `Handle::getCollection`: the scopes and collections the keys are
sent to, and their creation by the workers.

## Main definitions

- `RoutesToCreated` — a key is sent to a collection that is created

## Main results

- `routesToCreated_iff` — when it is
-/

namespace Sdkd

/-! ## The number in a key -/

/-- The number a list of digits stands for. -/
def digitsValue (digits : List Char) : ℕ :=
  digits.foldl (fun n c => 10 * n + (c.toNat - '0'.toNat)) 0

theorem digit_le_nine {c : Char} (h : c.isDigit = true) : c.toNat - '0'.toNat ≤ 9 := by
  have hle : c.val ≤ 57 := by
    simp only [Char.isDigit, Bool.and_eq_true, decide_eq_true_eq] at h
    exact h.2
  have hnat : c.toNat ≤ 57 := UInt32.le_iff_toNat_le.mp hle
  have hzero : '0'.toNat = 48 := rfl
  omega

/-- Each digit multiplies the bound by ten. -/
theorem foldl_digits_lt {digits : List Char} (h : ∀ c ∈ digits, c.isDigit = true) (n : ℕ) :
    digits.foldl (fun n c => 10 * n + (c.toNat - '0'.toNat)) n < (n + 1) * 10 ^ digits.length := by
  induction digits generalizing n with
  | nil => simp
  | cons c digits ih =>
    obtain ⟨hc, hdigits⟩ := List.forall_mem_cons.mp h
    have hnine := digit_le_nine hc
    rw [List.foldl_cons, List.length_cons, pow_succ']
    refine (ih hdigits _).trans_le ?_
    rw [← mul_assoc]
    exact Nat.mul_le_mul_right _ (by omega)

/-- Further digits do not make a number smaller. -/
theorem le_foldl_digits (digits : List Char) (n : ℕ) :
    n ≤ digits.foldl (fun n c => 10 * n + (c.toNat - '0'.toNat)) n := by
  induction digits generalizing n with
  | nil => exact le_rfl
  | cons c digits ih =>
    have hstep : n ≤ 10 * n + (c.toNat - '0'.toNat) := by omega
    exact hstep.trans (ih _)

theorem digitsValue_append (digits more : List Char) :
    digitsValue digits ≤ digitsValue (digits ++ more) := by
  unfold digitsValue
  rw [List.foldl_append]
  exact le_foldl_digits _ _

namespace HandleOptions

/-- What is taken begins no later than the last three characters. -/
theorem start_le (n : ℕ) : (max 0 (toInt (toInt n - 3))).toNat ≤ n - 3 := by
  have hcast : ∀ x : ℤ, toInt x =
      if x % 2 ^ 32 < 2 ^ 31 then x % 2 ^ 32 else x % 2 ^ 32 - 2 ^ 32 := by
    intro x
    unfold toInt Int.bmod
    norm_num
  rw [hcast, hcast]
  split_ifs <;> omega

/-- A key shorter than `2 ^ 31` has its last three characters taken. -/
theorem start_of_short {n : ℕ} (h : n < 2 ^ 31) : (max 0 (toInt (toInt n - 3))).toNat = n - 3 := by
  rw [toInt_of_bounds (x := n) (by omega) (by omega), toInt_of_bounds (by omega) (by omega)]
  omega

theorem isDigit_of_mem_takenDigits {key : String} : ∀ c ∈ takenDigits key, c.isDigit = true :=
  fun _ hc => (List.mem_filter.mp hc).2

/-- A digit among the last three characters is taken. -/
theorem takenDigits_ne_nil {key : String} (h : ∃ c ∈ key.toList.drop (key.length - 3), c.isDigit) :
    takenDigits key ≠ [] := by
  obtain ⟨c, hc, hdigit⟩ := h
  have hle := start_le key.length
  have hmem : c ∈ key.toList.drop (max 0 (toInt (toInt key.length - 3))).toNat := by
    rw [← Nat.sub_add_cancel hle, Nat.add_comm, ← List.drop_drop] at hc
    exact List.mem_of_mem_drop hc
  exact List.ne_nil_of_mem (List.mem_filter.mpr ⟨hmem, hdigit⟩)

/-- The digits among three characters are a number below 1000. -/
theorem takenDigits_lt {key : String} (h : key.length < 2 ^ 31) : digitsValue (takenDigits key) < 1000 := by
  have hlen : (takenDigits key).length ≤ 3 := by
    refine (List.length_filter_le _ _).trans ?_
    rw [start_of_short h, List.length_drop, String.length_toList]
    omega
  have hlt : digitsValue (takenDigits key) < (0 + 1) * 10 ^ (takenDigits key).length :=
    foldl_digits_lt isDigit_of_mem_takenDigits 0
  rw [Nat.zero_add, Nat.one_mul] at hlt
  exact hlt.trans_le (Nat.pow_le_pow_right (by decide) hlen)

/-- Numbers below `2 ^ 24` are floats, and the whole part of their quotient is not lost to rounding. -/
theorem floatFloor_of_lt {a b : ℕ} (ha : a < 2 ^ 24) (hb : 0 < b) : floatFloor a b = (a / b : ℕ) := by
  have hle : a / b ≤ a := Nat.div_le_self a b
  have hfloor : ⌊Rounding.roundTo 24 (Rounding.roundTo 24 a / Rounding.roundTo 24 b)⌋ = (a / b : ℕ) := by
    rw [Rounding.roundTo_natCast ha]
    by_cases hsmall : b < 2 ^ 24
    · rw [Rounding.roundTo_natCast hsmall, Rounding.floor_roundTo_div ha hb]
    · -- a large divisor stays larger than the dividend
      obtain ⟨m, hm, hlarge⟩ := Rounding.exists_roundTo_natCast (by decide) (Nat.not_lt.mp hsmall)
      rw [hm, Rounding.floor_roundTo_div ha (by omega), Nat.div_eq_of_lt (by omega),
        Nat.div_eq_of_lt (by omega)]
  rw [floatFloor, hfloor, toInt_natCast (by omega)]

/-- The scope and the collection of a key whose digits are an `int`. -/
theorem getCollection_eq {o : HandleOptions} {key : String} (huse : o.useCollections = true)
    (hpos : 0 < o.collections * o.scopes) (hint : o.collections * o.scopes < 2 ^ 31)
    (hne : takenDigits key ≠ []) :
    o.getCollection key = if digitsValue (takenDigits key) < 2 ^ 31 then
        .ok (toString (floatFloor (digitsValue (takenDigits key) % (o.collections * o.scopes)) o.collections),
          toString (digitsValue (takenDigits key) % (o.collections * o.scopes)))
      else .error .uncaughtException := by
  have hkey : key ≠ "" := by
    rintro rfl
    exact hne rfl
  have htotal : o.collections * o.scopes % 2 ^ 64 = o.collections * o.scopes :=
    Nat.mod_eq_of_lt (hint.trans (by decide))
  have hstoi : stoi (takenDigits key) =
      if digitsValue (takenDigits key) < 2 ^ 31 then some (digitsValue (takenDigits key)) else none := by
    cases hdigits : takenDigits key with
    | nil => exact absurd hdigits hne
    | cons c cs => rfl
  unfold getCollection
  rw [if_pos ⟨huse, hkey⟩, hstoi]
  by_cases hlt : digitsValue (takenDigits key) < 2 ^ 31
  · rw [if_pos hlt, if_pos hlt]
    dsimp only
    rw [htotal, if_neg hpos.ne']
  · rw [if_neg hlt, if_neg hlt]

/-! ## Routing -/

/-- The key is sent to a pair of numbers `s` and `c`, one of those that a successful creation of all scopes
and collections has created. -/
def RoutesToCreated (o : HandleOptions) (key : String) : Prop :=
  ∃ s c, o.getCollection key = .ok (toString s, toString c) ∧
    s < o.scopes ∧ s * o.collections ≤ c ∧ c < (s + 1) * o.collections ∧
    ∀ created, (generateCollections o created false).1 = true →
      .createScope o.bucket (toString s) ∈ (generateCollections o created false).2.2 ∧
      .createCollection o.bucket (toString s) (toString c) ∈ (generateCollections o created false).2.2

end HandleOptions

/-- Requests that all succeed are all sent. -/
theorem sendUntilError_true {created : ℕ → ErrorCode} {rs : List ClusterRequest} {n : ℕ}
    (h : (sendUntilError created n rs).1 = true) : (sendUntilError created n rs).2 = rs := by
  induction rs generalizing n with
  | nil => rfl
  | cons r rs ih =>
    unfold sendUntilError at h ⊢
    split_ifs at h ⊢
    exact congrArg (r :: ·) (ih h)

/-- The requests for the collections of a scope. -/
theorem mem_collectionRequests (bucket : String) {scopes collections s j : ℕ} (hs : s < scopes)
    (hj : j < collections) :
    .createScope bucket (toString s) ∈ collectionRequests bucket scopes collections ∧
    .createCollection bucket (toString s) (toString (s * collections + j)) ∈
      collectionRequests bucket scopes collections := by
  unfold collectionRequests
  constructor
  · exact List.mem_flatMap.mpr ⟨s, List.mem_range.mpr hs, List.mem_cons_self⟩
  · refine List.mem_flatMap.mpr ⟨s, List.mem_range.mpr hs, List.mem_cons_of_mem _ ?_⟩
    exact List.mem_map.mpr ⟨j, List.mem_range.mpr hj, rfl⟩

namespace HandleOptions

/-- A number below the number of collections has its scope. -/
theorem scope_bounds {n scopes collections : ℕ} (hc : 1 ≤ collections) (hlt : n < scopes * collections) :
    n / collections < scopes ∧ n / collections * collections ≤ n ∧
      n < (n / collections + 1) * collections := by
  refine ⟨(Nat.div_lt_iff_lt_mul hc).mpr hlt, Nat.div_mul_le_self n collections, ?_⟩
  rw [Nat.add_mul, Nat.one_mul]
  exact Nat.lt_div_mul_add hc

/-- A collection within the bounds is among those that are created. -/
theorem created_of_bounds {o : HandleOptions} {s c : ℕ} {created : ℕ → ErrorCode}
    (huse : o.useCollections = true) (hint : o.scopes * o.collections < 2 ^ 31) (hs : s < o.scopes)
    (hle : s * o.collections ≤ c) (hlt : c < (s + 1) * o.collections)
    (hcreated : (generateCollections o created false).1 = true) :
    .createScope o.bucket (toString s) ∈ (generateCollections o created false).2.2 ∧
    .createCollection o.bucket (toString s) (toString c) ∈
      (generateCollections o created false).2.2 := by
  have hc : 0 < o.collections := by
    by_contra hno
    rw [Nat.eq_zero_of_not_pos hno] at hlt
    omega
  have hscopes : o.scopes < 2 ^ 31 := (Nat.le_mul_of_pos_right _ hc).trans_lt hint
  have hcollections : o.collections < 2 ^ 31 :=
    (Nat.le_mul_of_pos_left _ (Nat.zero_lt_of_lt hs)).trans_lt hint
  unfold generateCollections at hcreated ⊢
  rw [if_pos ⟨huse, rfl⟩] at hcreated ⊢
  rw [toInt_of_bounds (x := o.scopes) (by omega) (by omega),
    toInt_of_bounds (x := o.collections) (by omega) (by omega)] at hcreated ⊢
  dsimp only at hcreated ⊢
  rw [sendUntilError_true hcreated]
  rw [Nat.add_mul, Nat.one_mul] at hlt
  have hmem := mem_collectionRequests o.bucket hs
    (show c - s * o.collections < o.collections by omega)
  rw [Nat.add_sub_cancel' hle] at hmem
  exact hmem

/-- The scope of a collection that is created is the whole part of a quotient. -/
theorem eq_div_of_bounds {s c collections : ℕ} (hle : s * collections ≤ c) (hlt : c < (s + 1) * collections) :
    s = c / collections := by
  have hpos : 0 < collections := by
    by_contra hno
    rw [Nat.eq_zero_of_not_pos hno] at hlt
    omega
  exact (Nat.div_eq_of_lt_le hle hlt).symm

/-- **Routing.** With collections, a key that has a digit among its last three characters is sent to a
collection that is created if and only if the digits that are taken from it are an `int` and the quotient of
the two floats has the whole part of the exact one; so whenever it is shorter than `2 ^ 31`, and whenever the
digits are a number below `2 ^ 24`. -/
theorem routesToCreated_iff (o : HandleOptions) (key : String) (huse : o.useCollections = true)
    (hs : 1 ≤ o.scopes) (hc : 1 ≤ o.collections) (hint : o.scopes * o.collections < 2 ^ 31)
    (hdigit : ∃ c ∈ key.toList.drop (key.length - 3), c.isDigit) :
    let number := digitsValue (takenDigits key) % (o.collections * o.scopes)
    (RoutesToCreated o key ↔ digitsValue (takenDigits key) < 2 ^ 31 ∧
      floatFloor number o.collections = (number / o.collections : ℕ)) ∧
    (digitsValue (takenDigits key) < 2 ^ 24 → RoutesToCreated o key) ∧
    (key.length < 2 ^ 31 → RoutesToCreated o key) := by
  intro number
  have hpos : 0 < o.collections * o.scopes := Nat.mul_pos hc hs
  have hint' : o.collections * o.scopes < 2 ^ 31 := by rwa [Nat.mul_comm]
  have hget := getCollection_eq huse hpos hint' (takenDigits_ne_nil hdigit)
  have hiff : RoutesToCreated o key ↔ digitsValue (takenDigits key) < 2 ^ 31 ∧
      floatFloor number o.collections = (number / o.collections : ℕ) := by
    constructor
    · rintro ⟨s, c, hok, -, hle, hlt, -⟩
      by_cases hdigits : digitsValue (takenDigits key) < 2 ^ 31
      · rw [if_pos hdigits, hok, Except.ok.injEq, Prod.mk.injEq] at hget
        obtain ⟨hscope, hcollection⟩ := hget
        have hnumber : c = number := Words.toString_inj (congrArg String.toList hcollection)
        have hfloor : (s : ℤ) = floatFloor number o.collections :=
          Words.toString_int_injective (congrArg String.toList hscope)
        rw [hnumber] at hle hlt
        exact ⟨hdigits, by rw [← hfloor, eq_div_of_bounds hle hlt]⟩
      · rw [hget, if_neg hdigits] at hok
        cases hok
    · rintro ⟨hdigits, hfloor⟩
      rw [if_pos hdigits, hfloor] at hget
      have hlt : number < o.scopes * o.collections := by
        rw [Nat.mul_comm o.scopes]
        exact Nat.mod_lt _ hpos
      obtain ⟨hscope, hle, hbelow⟩ := scope_bounds hc hlt
      exact ⟨_, _, hget, hscope, hle, hbelow, fun created hcreated =>
        created_of_bounds huse hint hscope hle hbelow hcreated⟩
  have hsmall : digitsValue (takenDigits key) < 2 ^ 24 → RoutesToCreated o key := by
    intro hlt
    have hnumber : number < 2 ^ 24 := (Nat.mod_le _ _).trans_lt hlt
    exact hiff.mpr ⟨hlt.trans (by decide), floatFloor_of_lt hnumber hc⟩
  exact ⟨hiff, hsmall, fun hshort => hsmall ((takenDigits_lt hshort).trans (by decide))⟩

section Examples

/-- Options with two scopes of three collections each. -/
def manyCollections : HandleOptions where
  hostname := "localhost"
  bucket := "default"
  username := "user"
  password := "secret"
  certpath := ""
  useSSL := false
  useCollections := true
  scopes := 2
  collections := 3
  timeout := 0

theorem routesToCreated_iff_key : RoutesToCreated manyCollections "key15" :=
  (routesToCreated_iff manyCollections "key15" rfl (by decide) (by decide) (by decide)
    ⟨'1', by decide, by decide⟩).2.2 (by decide)

/-- Two scopes of `2 ^ 25` collections each. -/
def largeScopes : HandleOptions := { manyCollections with collections := 2 ^ 25 }

/-- Digits behind a character that is repeated. -/
def paddedKey (c : Char) (n : ℕ) (digits : String) : String :=
  String.ofList (List.replicate n c ++ digits.toList)

section PaddedKey

variable {c : Char} {n : ℕ} {digits : String}

theorem paddedKey_length : (paddedKey c n digits).length = n + digits.length := by
  rw [← String.length_toList, paddedKey, String.toList_ofList, List.length_append, List.length_replicate,
    String.length_toList]

theorem paddedKey_digit (hlen : 3 ≤ digits.length)
    (h : ∃ d ∈ digits.toList.drop (digits.length - 3), d.isDigit) :
    ∃ d ∈ (paddedKey c n digits).toList.drop ((paddedKey c n digits).length - 3), d.isDigit := by
  rw [paddedKey_length, Nat.add_sub_assoc hlen, paddedKey, String.toList_ofList, List.drop_append,
    List.length_replicate, Nat.add_sub_cancel_left]
  obtain ⟨d, hd, hdigit⟩ := h
  exact ⟨d, List.mem_append_right _ hd, hdigit⟩

/-- The length of so long a key is negative as an `int`, so all of it is taken. -/
theorem takenDigits_paddedKey (hn : n = 2 ^ 31) (hlo : 3 ≤ digits.length) (hhi : digits.length ≤ 16) :
    takenDigits (paddedKey c n digits) =
      (List.replicate n c).filter Char.isDigit ++ digits.toList.filter Char.isDigit := by
  have hneg : toInt (paddedKey c n digits).length = digits.length - 2 ^ 31 := by
    rw [paddedKey_length, hn, toInt, Int.bmod_def]
    omega
  have hstart : (max 0 (toInt (toInt (paddedKey c n digits).length - 3))).toNat = 0 := by
    rw [hneg, toInt_of_bounds (by omega) (by omega)]
    omega
  unfold takenDigits
  dsimp only
  rw [hstart, List.drop_zero, paddedKey, String.toList_ofList, List.filter_append]

end PaddedKey

/-- A key of `2 ^ 31 + 3` digits is taken for a number as a whole, which is no `int`. Of a key with a number of
eight digits the quotient of the floats is that of the next scope. -/
theorem longKey_not_routed :
    ((∃ c ∈ (paddedKey '1' (2 ^ 31) "111").toList.drop ((paddedKey '1' (2 ^ 31) "111").length - 3),
        c.isDigit) ∧
      manyCollections.getCollection (paddedKey '1' (2 ^ 31) "111") = .error .uncaughtException ∧
      ¬ RoutesToCreated manyCollections (paddedKey '1' (2 ^ 31) "111")) ∧
    (∃ c ∈ (paddedKey 'k' (2 ^ 31) "33554431").toList.drop
        ((paddedKey 'k' (2 ^ 31) "33554431").length - 3), c.isDigit) ∧
    largeScopes.getCollection (paddedKey 'k' (2 ^ 31) "33554431") = .ok ("1", "33554431") ∧
    ¬ RoutesToCreated largeScopes (paddedKey 'k' (2 ^ 31) "33554431") := by
  have hdigit := @paddedKey_digit '1' (2 ^ 31) "111" (by decide)
    ⟨'1', by decide, by decide⟩
  have hdigit' := @paddedKey_digit 'k' (2 ^ 31) "33554431" (by decide)
    ⟨'1', by decide, by decide⟩
  have hlarge : ¬ digitsValue (takenDigits (paddedKey '1' (2 ^ 31) "111")) < 2 ^ 31 := by
    have hsplit : (2 ^ 31 : ℕ) = 11 + (2 ^ 31 - 11) := by decide
    rw [takenDigits_paddedKey rfl (by decide) (by decide), List.filter_replicate_of_pos (by decide),
      hsplit, List.replicate_add, List.append_assoc, not_lt]
    exact le_trans (by decide) (digitsValue_append _ _)
  have hnumber : digitsValue (takenDigits (paddedKey 'k' (2 ^ 31) "33554431")) = 33554431 := by
    rw [takenDigits_paddedKey rfl (by decide) (by decide), List.filter_replicate_of_neg (by decide)]
    decide
  have hget := getCollection_eq (o := manyCollections) rfl (by decide) (by decide)
    (takenDigits_ne_nil hdigit)
  rw [if_neg hlarge] at hget
  have hget' := getCollection_eq (o := largeScopes) rfl (by decide) (by decide)
    (takenDigits_ne_nil hdigit')
  have hscope : floatFloor (33554431 % (largeScopes.collections * largeScopes.scopes))
      largeScopes.collections = 1 := by decide +kernel
  rw [hnumber, if_pos (by decide), hscope] at hget'
  refine ⟨⟨hdigit, hget, ?_⟩, hdigit', hget', ?_⟩
  · rintro ⟨s, c, hok, -⟩
    cases hget.symm.trans hok
  · rintro ⟨s, c, hok, -, hle, -⟩
    have hpair := Prod.mk.inj (Except.ok.inj (hget'.symm.trans hok))
    obtain rfl : 1 = s := Words.toString_inj (congrArg String.toList hpair.1)
    obtain rfl : 33554431 = c := Words.toString_inj (congrArg String.toList hpair.2)
    exact absurd hle (by decide)

end Examples

end HandleOptions

end Sdkd
