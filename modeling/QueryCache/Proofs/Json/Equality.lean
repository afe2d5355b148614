import QueryCache.Json.Basic

/-!
# Equality of values

`Json.same` is an equivalence. It is coarser than equality only at numbers,
where the two zeros of the doubles are one value. A scalar is the same only as
another scalar (`Json.isScalar_of_same`).
-/

namespace QueryCache

namespace Double

theorem same_trans {x y z : Double} (hxy : same x y = true) (hyz : same y z = true) :
    same x z = true := by
  simp only [same, Bool.and_eq_true, Bool.or_eq_true, beq_iff_eq] at hxy hyz ⊢
  refine ⟨hxy.1.trans hyz.1, ?_⟩
  rcases hxy.2 with hsign | hzero
  · rcases hyz.2 with hsign' | hzero
    · exact Or.inl (hsign.trans hsign')
    · exact Or.inr (hxy.1.trans hzero)
  · exact Or.inr hzero

end Double

namespace Number

theorem same_trans {a b c : Number} (hab : same a b = true) (hbc : same b c = true) :
    same a c = true := by
  cases a <;> cases b <;> cases c <;> simp only [same, beq_iff_eq, Bool.false_eq_true] at *
  · exact hab.trans hbc
  · exact Double.same_trans hab hbc

end Number

namespace Json

mutual

theorem same_refl : ∀ x : Json, same x x = true
  | null => rfl
  | bool b => by simp [same]
  | number n => Number.same_refl n
  | string s => by simp [same]
  | array xs => sameItems_refl xs
  | object xs => sameMembers_refl xs
termination_by structural x => x

theorem sameItems_refl : ∀ xs : List Json, sameItems xs xs = true
  | [] => rfl
  | x :: xs => by simp [sameItems, same_refl x, sameItems_refl xs]
termination_by structural xs => xs

theorem sameMembers_refl : ∀ xs : List (String × Json), sameMembers xs xs = true
  | [] => rfl
  | (k, x) :: xs => by simp [sameMembers, same_refl x, sameMembers_refl xs]
termination_by structural xs => xs

end

mutual

theorem same_comm : ∀ x y : Json, same x y = same y x
  | null, y => by cases y <;> rfl
  | bool a, y => by cases y <;> simp [same, BEq.comm]
  | number a, y => by cases y <;> simp [same, Number.same_comm]
  | string a, y => by cases y <;> simp [same, BEq.comm]
  | array xs, y => by
      cases y with
      | array ys => exact sameItems_comm xs ys
      | _ => rfl
  | object xs, y => by
      cases y with
      | object ys => exact sameMembers_comm xs ys
      | _ => rfl
termination_by structural x => x

theorem sameItems_comm : ∀ xs ys : List Json, sameItems xs ys = sameItems ys xs
  | [], ys => by cases ys <;> rfl
  | x :: xs, [] => rfl
  | x :: xs, y :: ys => by
      simp only [sameItems, same_comm x y, sameItems_comm xs ys]
termination_by structural xs => xs

theorem sameMembers_comm :
    ∀ xs ys : List (String × Json), sameMembers xs ys = sameMembers ys xs
  | [], ys => by cases ys <;> rfl
  | (k, x) :: xs, [] => rfl
  | (k, x) :: xs, (l, y) :: ys => by
      simp only [sameMembers, same_comm x y, sameMembers_comm xs ys, BEq.comm (a := k)]
termination_by structural xs => xs

end

mutual

theorem same_trans :
    ∀ x y z : Json, same x y = true → same y z = true → same x z = true
  | null, y, z, hxy, hyz => by
      cases y <;> simp [same] at hxy
      exact hyz
  | bool a, y, z, hxy, hyz => by
      cases y <;> simp [same] at hxy
      exact hxy ▸ hyz
  | number a, y, z, hxy, hyz => by
      cases y <;> simp only [same, Bool.false_eq_true] at hxy
      cases z <;> simp only [same, Bool.false_eq_true] at hyz
      exact Number.same_trans hxy hyz
  | string a, y, z, hxy, hyz => by
      cases y <;> simp [same] at hxy
      exact hxy ▸ hyz
  | array xs, y, z, hxy, hyz => by
      cases y <;> simp only [same, Bool.false_eq_true] at hxy
      cases z <;> simp only [same, Bool.false_eq_true] at hyz
      exact sameItems_trans xs _ _ hxy hyz
  | object xs, y, z, hxy, hyz => by
      cases y <;> simp only [same, Bool.false_eq_true] at hxy
      cases z <;> simp only [same, Bool.false_eq_true] at hyz
      exact sameMembers_trans xs _ _ hxy hyz
termination_by structural x => x

theorem sameItems_trans :
    ∀ xs ys zs : List Json, sameItems xs ys = true → sameItems ys zs = true →
      sameItems xs zs = true
  | [], ys, zs, hxy, hyz => by
      cases ys with
      | nil => exact hyz
      | cons y ys => simp [sameItems] at hxy
  | x :: xs, [], zs, hxy, _ => by simp [sameItems] at hxy
  | x :: xs, y :: ys, [], _, hyz => by simp [sameItems] at hyz
  | x :: xs, y :: ys, z :: zs, hxy, hyz => by
      simp only [sameItems, Bool.and_eq_true] at hxy hyz ⊢
      exact ⟨same_trans x y z hxy.1 hyz.1, sameItems_trans xs ys zs hxy.2 hyz.2⟩
termination_by structural xs => xs

theorem sameMembers_trans :
    ∀ xs ys zs : List (String × Json), sameMembers xs ys = true →
      sameMembers ys zs = true → sameMembers xs zs = true
  | [], ys, zs, hxy, hyz => by
      cases ys with
      | nil => exact hyz
      | cons y ys => simp [sameMembers] at hxy
  | (k, x) :: xs, [], zs, hxy, _ => by simp [sameMembers] at hxy
  | (k, x) :: xs, (l, y) :: ys, [], _, hyz => by simp [sameMembers] at hyz
  | (k, x) :: xs, (l, y) :: ys, (m, z) :: zs, hxy, hyz => by
      simp only [sameMembers, Bool.and_eq_true, beq_iff_eq] at hxy hyz ⊢
      exact ⟨⟨hxy.1.1.trans hyz.1.1, same_trans x y z hxy.1.2 hyz.1.2⟩,
        sameMembers_trans xs ys zs hxy.2 hyz.2⟩
termination_by structural xs => xs

end

mutual

/-- Values are compared part by part. -/
def decEq : (x y : Json) → Decidable (x = y)
  | null, y => match y with
    | null => isTrue rfl
    | bool _ | number _ | string _ | array _ | object _ => isFalse (by simp)
  | bool a, y => match y with
    | bool b => decidable_of_iff (a = b) (by simp)
    | null | number _ | string _ | array _ | object _ => isFalse (by simp)
  | number a, y => match y with
    | number b => decidable_of_iff (a = b) (by simp)
    | null | bool _ | string _ | array _ | object _ => isFalse (by simp)
  | string a, y => match y with
    | string b => decidable_of_iff (a = b) (by simp)
    | null | bool _ | number _ | array _ | object _ => isFalse (by simp)
  | array xs, y => match y with
    | array ys => match decEqItems xs ys with
      | isTrue e => isTrue (by rw [e])
      | isFalse ne => isFalse (by simp [ne])
    | null | bool _ | number _ | string _ | object _ => isFalse (by simp)
  | object xs, y => match y with
    | object ys => match decEqMembers xs ys with
      | isTrue e => isTrue (by rw [e])
      | isFalse ne => isFalse (by simp [ne])
    | null | bool _ | number _ | string _ | array _ => isFalse (by simp)
termination_by structural x => x

/-- Lists are compared item by item. -/
def decEqItems : (xs ys : List Json) → Decidable (xs = ys)
  | [], [] => isTrue rfl
  | x :: xs, y :: ys =>
    match decEq x y, decEqItems xs ys with
    | isTrue e, isTrue e' => isTrue (by rw [e, e'])
    | isFalse ne, _ => isFalse (by simp [ne])
    | _, isFalse ne => isFalse (by simp [ne])
  | [], _ :: _ => isFalse (by simp)
  | _ :: _, [] => isFalse (by simp)
termination_by structural xs => xs

/-- Tables of members are compared entry by entry. -/
def decEqMembers : (xs ys : List (String × Json)) → Decidable (xs = ys)
  | [], [] => isTrue rfl
  | (k, x) :: xs, (l, y) :: ys =>
    if e : k = l then
      match decEq x y, decEqMembers xs ys with
      | isTrue e', isTrue e'' => isTrue (by rw [e, e', e''])
      | isFalse ne, _ => isFalse (by simp [ne])
      | _, isFalse ne => isFalse (by simp [ne])
    else isFalse (by simp [e])
  | [], _ :: _ => isFalse (by simp)
  | _ :: _, [] => isFalse (by simp)
termination_by structural xs => xs

end

instance : DecidableEq Json := decEq

/-- The value is neither a list nor an object. -/
def isScalar : Json → Bool
  | array _ => false
  | object _ => false
  | _ => true

theorem isScalar_of_same {x y : Json} (h : same x y = true) (hx : x.isScalar = true) :
    y.isScalar = true := by
  cases x <;> cases y <;> simp_all [same, isScalar]

end Json

end QueryCache
