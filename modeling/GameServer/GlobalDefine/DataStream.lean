import GameServer.GlobalDefine.Model.DataStream
/-!
# GlobalDefine — what comes back from a `DataStream`

`bytesOf` is what a pop expects in front, `pushedBytes` what a push
writes. They differ for streams inside a vector alone, and there in
length (`length_constBytes`). A pop takes no more than the bytes of the
value it returns (`popValue_takes`), and one of an `unsigned long` never
takes the last four. So values come back, and the stream is empty behind
them, exactly when neither is among them (`popAll_iff`).

On any other bytes a pop is safe when the sizes announced in them are
(`Announces`): the code tests that of a stream from above only, and those
of strings and vectors not at all.
-/

namespace GameServer.GlobalDefine.DataStream

variable {s s' r : DataStream} {t : Ty}

/-! ## Bytes of values -/

/-- The bytes of a string or a stream: its size, as an `int`, and it. -/
def sizedBytes (data : List UInt8) : List UInt8 :=
  Layout.int32.toBytes (Int32.ofNat data.length) ++ data

/-- The bytes of a vector: its size and the bytes of its elements. -/
def vectorBytes {α : Type} (elemBytes : α → List UInt8) (data : List α) : List UInt8 :=
  Layout.uint32.toBytes (UInt32.ofNat data.length) ++ data.flatMap elemBytes

/-- The bytes a pop of type `t` takes a value from. -/
def bytesOf : (t : Ty) → t.Val → List UInt8
  | .scalar k => k.layout.toBytes
  | .unsignedLong => Layout.uint32.toBytes
  | .string => sizedBytes
  | .dataStream => sizedBytes
  | .vector elem => vectorBytes (bytesOf elem)

def constBytes : (t : Ty) → t.Val → List UInt8
  | .dataStream => vectorBytes fun c => Layout.int32.toBytes c.toInt8.toInt32
  | .vector elem => vectorBytes (constBytes elem)
  | t => bytesOf t

def pushedBytes : (t : Ty) → t.Val → List UInt8
  | .dataStream => sizedBytes
  | t => constBytes t

def constStreamBytes : (t : Ty) → t.Val → ℕ
  | .dataStream, v => List.length v
  | .vector elem, v => (v.map (constStreamBytes elem)).sum
  | _, _ => 0

/-- How many bytes the streams inside a vector hold. -/
def vectorStreamBytes : (t : Ty) → t.Val → ℕ
  | .dataStream, _ => 0
  | t, v => constStreamBytes t v

@[simp] theorem length_sizedBytes (data : List UInt8) :
    (sizedBytes data).length = 4 + data.length := by
  rw [sizedBytes, List.length_append, Layout.length_toBytes]
  rfl

@[simp] theorem length_vectorBytes {α : Type} (elemBytes : α → List UInt8) (data : List α) :
    (vectorBytes elemBytes data).length = 4 + (data.flatMap elemBytes).length := by
  rw [vectorBytes, List.length_append, Layout.length_toBytes]
  rfl

/-- **Each byte of a stream in a constant is written as four.** -/
theorem length_constBytes (t : Ty) (v : t.Val) :
    (constBytes t v).length = (bytesOf t v).length + 3 * constStreamBytes t v := by
  induction t with
  | dataStream =>
    have hchars : ∀ data : List UInt8,
        (data.flatMap fun c => Layout.int32.toBytes c.toInt8.toInt32).length
          = 4 * data.length := by
      intro data
      induction data with
      | nil => rfl
      | cons c data ih =>
        rw [List.flatMap_cons, List.length_append, ih, Layout.length_toBytes, List.length_cons,
          Nat.mul_succ, Nat.add_comm]
        rfl
    rw [constBytes, bytesOf, constStreamBytes, length_vectorBytes, length_sizedBytes, hchars]
    omega
  | vector elem ih =>
    have hsum : ∀ data : List elem.Val, (data.flatMap (constBytes elem)).length
        = (data.flatMap (bytesOf elem)).length
          + 3 * (data.map (constStreamBytes elem)).sum := by
      intro data
      induction data with
      | nil => rfl
      | cons x data ihd =>
        simp only [List.flatMap_cons, List.length_append, List.map_cons, List.sum_cons, ih, ihd]
        omega
    rw [constBytes, bytesOf, constStreamBytes, length_vectorBytes, length_vectorBytes, hsum]
    omega
  | _ => rfl

/-- A constant without bytes in streams is written as a pop expects
it. -/
theorem constBytes_eq (t : Ty) (v : t.Val) (h : constStreamBytes t v = 0) :
    constBytes t v = bytesOf t v := by
  induction t with
  | dataStream =>
    have hnil : v = [] := List.eq_nil_of_length_eq_zero h
    subst hnil
    rfl
  | vector elem ih =>
    rw [constBytes, bytesOf, vectorBytes, vectorBytes]
    congr 1
    refine List.flatMap_congr fun x hx => ?_
    refine ih x ?_
    rw [constStreamBytes, List.sum_eq_zero_iff_forall_eq_nat] at h
    exact h _ (List.mem_map_of_mem hx)
  | _ => rfl

theorem length_pushedBytes (t : Ty) (v : t.Val) :
    (pushedBytes t v).length = (bytesOf t v).length + 3 * vectorStreamBytes t v := by
  cases t
  case dataStream => rfl
  all_goals exact length_constBytes _ v

theorem pushedBytes_eq (t : Ty) (v : t.Val) (h : vectorStreamBytes t v = 0) :
    pushedBytes t v = bytesOf t v := by
  cases t
  case dataStream => rfl
  all_goals exact constBytes_eq _ v h

theorem bytesOf_ne_nil (t : Ty) (v : t.Val) : bytesOf t v ≠ [] := by
  refine List.ne_nil_of_length_pos ?_
  cases t with
  | scalar k =>
    rw [bytesOf, Layout.length_toBytes]
    cases k <;> decide
  | unsignedLong => rw [bytesOf, Layout.length_toBytes]; decide
  | string => rw [bytesOf, length_sizedBytes]; omega
  | dataStream => rw [bytesOf, length_sizedBytes]; omega
  | vector elem => rw [bytesOf, length_vectorBytes]; omega

/-! ## What a push writes -/

/-- A push that succeeds puts `data` behind the stream, which stays a
stream. -/
def Writes (push : DataStream → Option DataStream) (data : List UInt8) : Prop :=
  ∀ s s', s.length < 2 ^ 31 → push s = some s' → s' = s ++ data ∧ s'.length < 2 ^ 31

theorem writes_incSize (data : List UInt8) : Writes (fun s => incSize s data) data := by
  intro s s' _ h
  dsimp only [incSize] at h
  split_ifs at h with hlt
  cases h
  exact ⟨rfl, by rw [List.length_append]; exact hlt⟩

theorem Writes.bind {f g : DataStream → Option DataStream} {xs ys : List UInt8}
    (hf : Writes f xs) (hg : Writes g ys) : Writes (fun s => (f s).bind g) (xs ++ ys) := by
  intro s s' hs h
  obtain ⟨s₁, h₁, h₂⟩ := Option.bind_eq_some_iff.1 h
  obtain ⟨rfl, hlt⟩ := hf s s₁ hs h₁
  obtain ⟨rfl, hlt'⟩ := hg _ s' hlt h₂
  exact ⟨List.append_assoc _ _ _, hlt'⟩

theorem writes_some : Writes some [] := by
  intro s s' hs h
  cases h
  exact ⟨(List.append_nil s).symm, hs⟩

/-- **One push after the other.** -/
theorem writes_foldlM {α : Type} (f : DataStream → α → Option DataStream) (g : α → List UInt8)
    (hf : ∀ a, Writes (fun s => f s a) (g a)) (data : List α) :
    Writes (fun s => data.foldlM f s) (data.flatMap g) := by
  induction data with
  | nil => exact writes_some
  | cons a data ih => exact (hf a).bind ih

theorem writes_push {α : Type} (L : Layout α) (v : α) : Writes (fun s => push L s v) (L.toBytes v) :=
  writes_incSize _

theorem writes_pushSized (data : List UInt8) : Writes (fun s => pushSized s data) (sizedBytes data) := by
  refine (writes_push .int32 _).bind ?_
  by_cases hnil : data = []
  · subst hnil
    exact writes_some
  · simp only [if_neg hnil]
    exact writes_incSize data

theorem writes_pushVector {α : Type} {f : DataStream → α → Option DataStream} {g : α → List UInt8}
    (hf : ∀ a, Writes (fun s => f s a) (g a)) (data : List α) :
    Writes (fun s => pushVector f s data) (vectorBytes g data) :=
  (writes_push .uint32 _).bind (writes_foldlM f g hf data)

theorem writes_pushConst (t : Ty) (v : t.Val) :
    Writes (fun s => pushConst t s v) (constBytes t v) := by
  induction t with
  | string => exact writes_pushSized v
  | dataStream => exact writes_pushVector (fun c => writes_push .int32 _) v
  | vector elem ih => exact writes_pushVector ih v
  | _ => exact writes_push _ v

theorem writes_pushValue (t : Ty) (v : t.Val) :
    Writes (fun s => pushValue t s v) (pushedBytes t v) := by
  cases t
  case dataStream => exact writes_pushSized v
  all_goals exact writes_pushConst _ v

/-- **What pushing values leaves.** -/
theorem pushAll_eq {vs : List Typed} (h : pushAll [] vs = some s) :
    s = vs.flatMap (fun v => pushedBytes v.1 v.2) ∧ s.length < 2 ^ 31 := by
  have hpush : Writes (fun s => pushAll s vs) (vs.flatMap fun v => pushedBytes v.1 v.2) :=
    writes_foldlM (fun s (v : Typed) => pushValue v.1 s v.2) (fun v => pushedBytes v.1 v.2)
      (fun v => writes_pushValue v.1 v.2) vs
  exact hpush [] s (by decide) h

/-! ## What a pop takes -/

/-- The last thing pushed for a value is an `unsigned long`. -/
def EndsInLong : (t : Ty) → t.Val → Prop
  | .unsignedLong, _ => True
  | .vector elem, v => ∃ x ∈ v.getLast?, EndsInLong elem x
  | _, _ => False

/-- The same for the last of several values. -/
def LastEndsInLong (vs : List Typed) : Prop := ∃ v ∈ vs.getLast?, EndsInLong v.1 v.2

theorem takeRange_of_le {nSize : Int32} {n : ℕ} (hn : nSize.toInt = n) (hle : n ≤ s.length) :
    takeRange s nSize = some (s.take n, s.drop n) := by
  rw [takeRange, if_neg (by omega), hn, Int.toNat_natCast, takeFront, if_pos hle]

theorem sizedBytes_append (data : List UInt8) (s : DataStream) :
    Layout.int32.pop 0 (sizedBytes data ++ s) = (Int32.ofNat data.length, data ++ s) := by
  rw [sizedBytes, List.append_assoc, Layout.pop_toBytes]

theorem not_short_sizedBytes (data : List UInt8) (s : DataStream) :
    ¬ (sizedBytes data ++ s).length < 4 := by
  rw [List.length_append, length_sizedBytes]; omega

theorem ofNat_length {data : List UInt8} (h : data.length < 2 ^ 31) :
    (Int32.ofNat data.length).toInt = data.length ∧ (Int32.ofNat data.length = 0 ↔ data = []) := by
  have hnat := Int32.toInt_ofNat_of_lt h
  refine ⟨hnat, fun hzero => ?_, fun hnil => by rw [hnil]; rfl⟩
  rw [hzero, Int32.toInt_zero] at hnat
  exact List.eq_nil_of_length_eq_zero (by omega)

theorem popString_sizedBytes {data : List UInt8} (h : data.length < 2 ^ 31) :
    popString (sizedBytes data ++ r) [] = some (data, r) := by
  obtain ⟨hnat, hzero⟩ := ofNat_length h
  rw [popString, if_neg (not_short_sizedBytes data r)]
  simp only [sizedBytes_append, hzero]
  by_cases hnil : data = []
  · rw [if_pos hnil, hnil, List.nil_append]
  · rw [if_neg hnil, takeRange_of_le hnat (by simp), List.take_left, List.drop_left]

theorem popStream_sizedBytes {data : List UInt8} (h : data.length < 2 ^ 31) :
    popStream (sizedBytes data ++ r) [] = some (data, r) := by
  obtain ⟨hnat, hzero⟩ := ofNat_length h
  rw [popStream, if_neg (not_short_sizedBytes data r)]
  simp only [sizedBytes_append, hzero, hnat]
  by_cases hnil : data = []
  · rw [if_pos hnil, hnil, List.nil_append]
  · rw [if_neg hnil, if_neg (by simp), takeRange_of_le hnat (by simp), List.take_left,
      List.drop_left]

/-- Where the last element needs a byte behind it, so does an element with
none behind it; the others have the next one there. -/
theorem behind_of_last {α : Type} {bytes : α → List UInt8} {Last : α → Prop}
    (hne : ∀ x, bytes x ≠ []) {x : α} {xs : List α}
    (hlast : (∃ y ∈ (x :: xs).getLast?, Last y) → r ≠ []) :
    (Last x → xs.flatMap bytes ++ r ≠ []) ∧ ((∃ y ∈ xs.getLast?, Last y) → r ≠ []) := by
  constructor
  · intro hx
    cases xs with
    | nil => exact hlast ⟨x, rfl, hx⟩
    | cons y ys => simp [hne y]
  · rintro ⟨y, hy, hy'⟩
    refine hlast ⟨y, ?_, hy'⟩
    rw [List.getLast?_cons, Option.mem_def.1 hy]
    rfl

/-- **Elements that come back one by one come back in a loop**, where
only the last of them may need a byte behind it. -/
theorem popElems_bytes {α : Type} {pop : DataStream → Option (α × DataStream)}
    {bytes : α → List UInt8} {Last : α → Prop} (hne : ∀ x, bytes x ≠ [])
    (xs data : List α) (hlast : (∃ x ∈ xs.getLast?, Last x) → r ≠ [])
    (hpop : ∀ x ∈ xs, ∀ r, (Last x → r ≠ []) → pop (bytes x ++ r) = some (x, r)) :
    popElems pop xs.length (xs.flatMap bytes ++ r) data = some (data ++ xs, r) := by
  induction xs generalizing data with
  | nil => rw [List.append_nil]; rfl
  | cons x xs ih =>
    obtain ⟨hbehind, hrest⟩ := behind_of_last hne hlast
    rw [List.length_cons, popElems, List.flatMap_cons, List.append_assoc,
      hpop x (List.mem_cons_self ..) _ hbehind, Option.bind_some]
    simp only
    rw [ih _ hrest fun y hy => hpop y (List.mem_cons_of_mem _ hy), List.append_assoc,
      List.singleton_append]

theorem length_le_of_mem {α : Type} (bytes : α → List UInt8) {x : α} {xs : List α}
    (hx : x ∈ xs) : (bytes x).length ≤ (xs.flatMap bytes).length := by
  induction xs with
  | nil => cases hx
  | cons y ys ih =>
    rw [List.flatMap_cons, List.length_append]
    rcases List.mem_cons.1 hx with rfl | hmem
    · omega
    · have := ih hmem
      omega

theorem length_le_flatMap {α : Type} {bytes : α → List UInt8} (hne : ∀ x, bytes x ≠ [])
    (xs : List α) : xs.length ≤ (xs.flatMap bytes).length := by
  induction xs with
  | nil => exact Nat.zero_le _
  | cons x xs ih =>
    have := List.length_pos_iff.2 (hne x)
    rw [List.flatMap_cons, List.length_append, List.length_cons]
    omega

/-- **A value comes back**, and the bytes behind it stay. -/
theorem popValue_bytesOf (t : Ty) (v : t.Val) (r : DataStream) (hlt : (bytesOf t v).length < 2 ^ 31)
    (hlast : EndsInLong t v → r ≠ []) :
    popValue t (bytesOf t v ++ r) t.initial = some (v, r) := by
  induction t generalizing r with
  | scalar k => rw [popValue, bytesOf, Layout.pop_toBytes]
  | unsignedLong =>
    have hpos := List.length_pos_iff.2 (hlast trivial)
    have hsize : (Layout.uint32.toBytes v).length = 4 := Layout.length_toBytes _ _
    rw [popValue, bytesOf, popUnsignedLong, if_neg (by rw [List.length_append]; omega),
      Layout.pop_toBytes]
  | string =>
    rw [bytesOf, length_sizedBytes] at hlt
    exact popString_sizedBytes (by omega)
  | dataStream =>
    rw [bytesOf, length_sizedBytes] at hlt
    exact popStream_sizedBytes (by omega)
  | vector elem ih =>
    rw [bytesOf, length_vectorBytes] at hlt
    have hcount := length_le_flatMap (bytesOf_ne_nil elem) v
    have hpop : popCount (vectorBytes (bytesOf elem) v ++ r)
        = (UInt32.ofNat v.length, v.flatMap (bytesOf elem) ++ r) := by
      rw [popCount, vectorBytes, List.append_assoc, Layout.pop_toBytes]
    rw [popValue, bytesOf, hpop]
    simp only [UInt32.toNat_ofNat_of_lt' (show v.length < 2 ^ 32 by omega)]
    refine popElems_bytes (bytesOf_ne_nil elem) v [] hlast fun x hx r hr => ?_
    have := length_le_of_mem (bytesOf elem) hx
    exact ih x r (by omega) hr

/-- **Values come back**, where no stream in a vector holds any bytes and
the last thing pushed is not an `unsigned long`, or bytes follow it. -/
theorem popAll_bytesOf (vs : List Typed) (hlt : ∀ v ∈ vs, (bytesOf v.1 v.2).length < 2 ^ 31)
    (hlast : LastEndsInLong vs → r ≠ []) :
    popAll (vs.map Sigma.fst) (vs.flatMap (fun v => bytesOf v.1 v.2) ++ r) = some (vs, r) := by
  induction vs with
  | nil => rfl
  | cons v vs ih =>
    obtain ⟨hbehind, hrest⟩ := behind_of_last (fun v : Typed => bytesOf_ne_nil v.1 v.2) hlast
    rw [List.map_cons, popAll, List.flatMap_cons, List.append_assoc,
      popValue_bytesOf v.1 v.2 _ (hlt v (List.mem_cons_self ..)) hbehind, Option.bind_some]
    simp only
    rw [ih (fun w hw => hlt w (List.mem_cons_of_mem _ hw)) hrest, Option.map_some]

/-! ## What a pop leaves at most -/

/-- A pop takes no more than `bytes` of the value it returns. If it takes
all there is and the value is one of `Last`, then it takes four less. -/
def Takes {α : Type} (pop : DataStream → Option (α × DataStream)) (bytes : α → List UInt8)
    (Last : α → Prop) : Prop :=
  ∀ s v r, pop s = some (v, r) → s.length ≤ r.length + (bytes v).length ∧
    (r = [] → Last v → s.length + 4 ≤ (bytes v).length)

theorem takes_pop {α : Type} (L : Layout α) (a : α) :
    Takes (fun s => some (L.pop a s)) L.toBytes fun _ => False := by
  intro s v r h
  have hle := L.length_le_pop a s
  rw [Option.some.inj h] at hle
  exact ⟨by rw [Layout.length_toBytes]; exact hle, fun _ hfalse => hfalse.elim⟩

theorem takes_popUnsignedLong (a : UInt32) :
    Takes (fun s => some (popUnsignedLong s a)) Layout.uint32.toBytes fun _ => True := by
  intro s v r h
  have hsize : (Layout.uint32.toBytes v).length = 4 := Layout.length_toBytes _ _
  have hpop := Option.some.inj h
  rw [popUnsignedLong] at hpop
  split_ifs at hpop with hshort
  · cases hpop
    refine ⟨by omega, fun hnil _ => ?_⟩
    rw [hsize, hnil, List.length_nil]
  · rw [Layout.pop_of_le (by omega : 4 ≤ s.length)] at hpop
    have hr : r = s.drop 4 := (congrArg Prod.snd hpop).symm
    have hlen := List.length_drop (i := 4) (l := s)
    rw [← hr] at hlen
    refine ⟨by omega, fun hnil _ => ?_⟩
    rw [hnil, List.length_nil] at hlen
    omega

theorem length_pop_size (hshort : ¬ s.length < 4) :
    (Layout.int32.pop 0 s).2.length + 4 = s.length := by
  rw [Layout.pop_of_le (by exact Nat.not_lt.1 hshort)]
  simp only [List.length_drop]
  change s.length - 4 + 4 = _
  omega

theorem takeRange_length {nSize : Int32} {data : List UInt8} (h : takeRange s nSize = some (data, r)) :
    s.length = r.length + data.length := by
  rw [takeRange] at h
  rw [takeFront] at h
  split_ifs at h with hle
  cases h
  rw [List.length_drop, List.length_take]
  omega

theorem takes_popString : Takes (fun s => popString s []) sizedBytes fun _ => False := by
  intro s v r h
  refine ⟨?_, fun _ hfalse => hfalse.elim⟩
  rw [length_sizedBytes]
  dsimp only [popString] at h
  split_ifs at h with hshort hzero
  · omega
  · have := length_pop_size hshort
    cases h; omega
  · have := length_pop_size hshort
    have := takeRange_length h
    omega

theorem takes_popStream : Takes (fun s => popStream s []) sizedBytes fun _ => False := by
  intro s v r h
  refine ⟨?_, fun _ hfalse => hfalse.elim⟩
  rw [length_sizedBytes]
  dsimp only [popStream] at h
  split_ifs at h with hshort hzero hlong
  · omega
  · have := length_pop_size hshort
    cases h; omega
  · have := length_pop_size hshort
    cases h; omega
  · have := length_pop_size hshort
    have := takeRange_length h
    omega

/-- An element and those behind it take no more than their bytes, if each
of the two does. -/
theorem takes_cons {α : Type} {bytes : α → List UInt8} {Last : α → Prop} {s₁ : DataStream}
    {x : α} {xs : List α}
    (hle : s.length ≤ s₁.length + (bytes x).length)
    (hlast : s₁ = [] → Last x → s.length + 4 ≤ (bytes x).length) (hnone : xs = [] → r = s₁)
    (hles : s₁.length ≤ r.length + (xs.flatMap bytes).length)
    (hlasts : r = [] → (∃ y ∈ xs.getLast?, Last y) → s₁.length + 4 ≤ (xs.flatMap bytes).length) :
    s.length ≤ r.length + ((x :: xs).flatMap bytes).length ∧
      (r = [] → (∃ y ∈ (x :: xs).getLast?, Last y) →
        s.length + 4 ≤ ((x :: xs).flatMap bytes).length) := by
  rw [List.flatMap_cons, List.length_append]
  refine ⟨by omega, ?_⟩
  rintro hnil ⟨y, hy, hy'⟩
  cases xs with
  | nil =>
    cases hy
    have := hlast ((hnone rfl).symm.trans hnil) hy'
    omega
  | cons z zs =>
    have := hlasts hnil ⟨y, by rwa [List.getLast?_cons_cons] at hy, hy'⟩
    omega

/-- **The loop takes no more than the elements' bytes.** -/
theorem takes_popElems {α : Type} {pop : DataStream → Option (α × DataStream)}
    {bytes : α → List UInt8} {Last : α → Prop} (hpop : Takes pop bytes Last) {n : ℕ}
    {data all : List α} (h : popElems pop n s data = some (all, r)) :
    ∃ xs, all = data ++ xs ∧ (xs = [] → r = s) ∧ s.length ≤ r.length + (xs.flatMap bytes).length ∧
      (r = [] → (∃ x ∈ xs.getLast?, Last x) → s.length + 4 ≤ (xs.flatMap bytes).length) := by
  induction n generalizing s data with
  | zero =>
    cases h
    exact ⟨[], (List.append_nil _).symm, fun _ => rfl, Nat.le_add_right _ _,
      by rintro - ⟨x, hx, -⟩; cases hx⟩
  | succ n ih =>
    obtain ⟨⟨x, s₁⟩, hx, hrest⟩ := Option.bind_eq_some_iff.1 h
    obtain ⟨hle, hlast⟩ := hpop _ _ _ hx
    obtain ⟨xs, rfl, hnone, hles, hlasts⟩ := ih hrest
    exact ⟨x :: xs, by rw [List.append_assoc, List.singleton_append], nofun,
      takes_cons hle hlast hnone hles hlasts⟩

theorem takes_popValue (t : Ty) :
    Takes (fun s => popValue t s t.initial) (bytesOf t) (EndsInLong t) := by
  induction t with
  | scalar k => exact takes_pop k.layout k.zero
  | unsignedLong => exact takes_popUnsignedLong 0
  | string => exact takes_popString
  | dataStream => exact takes_popStream
  | vector elem ih =>
    intro s v r h
    obtain ⟨xs, rfl, -, hle, hlast⟩ := takes_popElems ih h
    have hcount : s.length ≤ (popCount s).2.length + 4 := Layout.length_le_pop _ _ _
    rw [bytesOf, length_vectorBytes]
    refine ⟨by omega, fun hnil hends => ?_⟩
    have := hlast hnil hends
    omega

theorem takes_popAll {ts : List Ty} {vs : List Typed} (h : popAll ts s = some (vs, r)) :
    (vs = [] → r = s) ∧ s.length ≤ r.length + (vs.flatMap fun v => bytesOf v.1 v.2).length ∧
      (r = [] → LastEndsInLong vs →
        s.length + 4 ≤ (vs.flatMap fun v => bytesOf v.1 v.2).length) := by
  induction ts generalizing s vs with
  | nil =>
    cases h
    exact ⟨fun _ => rfl, Nat.le_add_right _ _, by rintro - ⟨x, hx, -⟩; cases hx⟩
  | cons t ts ih =>
    obtain ⟨⟨v, s₁⟩, hv, hrest⟩ := Option.bind_eq_some_iff.1 h
    obtain ⟨⟨ws, r'⟩, hws, heq⟩ := Option.map_eq_some_iff.1 hrest
    cases heq
    obtain ⟨hle, hlast⟩ := takes_popValue t _ _ _ hv
    obtain ⟨hnone, hles, hlasts⟩ := ih hws
    exact ⟨nofun, takes_cons (x := (⟨t, v⟩ : Typed)) hle hlast hnone hles hlasts⟩

/-- **When what was pushed comes back.** -/
theorem popAll_iff {vs : List Typed} (hpush : pushAll [] vs = some s) :
    popAll (vs.map Sigma.fst) s = some (vs, []) ↔
      (∀ v ∈ vs, vectorStreamBytes v.1 v.2 = 0) ∧ ¬ LastEndsInLong vs := by
  obtain ⟨rfl, hlt⟩ := pushAll_eq hpush
  constructor
  · intro h
    obtain ⟨-, hle, hlast⟩ := takes_popAll h
    have hlong : (vs.flatMap fun v => pushedBytes v.1 v.2).length
        = (vs.flatMap fun v => bytesOf v.1 v.2).length
          + 3 * (vs.map fun v => vectorStreamBytes v.1 v.2).sum := by
      clear hpush hlt h hle hlast
      induction vs with
      | nil => rfl
      | cons v vs ih =>
        simp only [List.flatMap_cons, List.length_append, List.map_cons, List.sum_cons,
          length_pushedBytes, ih]
        omega
    have hzero : (vs.map fun v => vectorStreamBytes v.1 v.2).sum = 0 := by
      rw [List.length_nil] at hle
      omega
    refine ⟨fun v hv => ?_, fun hends => ?_⟩
    · exact List.sum_eq_zero_iff_forall_eq_nat.1 hzero _
        (List.mem_map_of_mem (f := fun v : Typed => vectorStreamBytes v.1 v.2) hv)
    · have := hlast rfl hends
      omega
  · rintro ⟨hzero, hends⟩
    have hbytes : vs.flatMap (fun v => pushedBytes v.1 v.2)
        = vs.flatMap (fun v => bytesOf v.1 v.2) :=
      List.flatMap_congr fun v hv => pushedBytes_eq _ _ (hzero v hv)
    rw [hbytes] at hlt ⊢
    have hback := popAll_bytesOf (r := []) vs (fun v hv => ?_) fun h => absurd h hends
    · rwa [List.append_nil] at hback
    · have := length_le_of_mem (fun v : Typed => bytesOf v.1 v.2) hv
      omega

/-! ## Any bytes -/

/-- Each loop over the elements of a vector takes no more of them than
there are bytes left when it begins. -/
def LoopsEnd : Ty → DataStream → Prop
  | .vector elem, s =>
      (popCount s).1.toNat ≤ (popCount s).2.length ∧
        ∀ i < (popCount s).1.toNat, ∀ data r,
          popElems (fun s => popValue elem s elem.initial) i (popCount s).2 [] = some (data, r) →
            LoopsEnd elem r
  | _, _ => True

/-- **A safe pop.** No range leaves the stream, and no loop takes more
elements than there are bytes left. -/
def PopsSafely (t : Ty) (s : DataStream) : Prop :=
  (popValue t s t.initial).isSome ∧ LoopsEnd t s

def announcedSize (s : DataStream) : ℤ := (Layout.int32.ofBytes (s.take 4)).toInt

def announcedCount (s : DataStream) : ℕ := (Layout.uint32.ofBytes (s.take 4)).toNat

/-- The bytes behind a value of type `t`. -/
def behind : Ty → DataStream → DataStream
  | .scalar k, s => if s.length < k.layout.size then s else s.drop k.layout.size
  | .unsignedLong, s => if s.length ≤ 4 then s else s.drop 4
  | .string, s => if s.length < 4 then s else s.drop (4 + (announcedSize s).toNat)
  | .dataStream, s =>
      if s.length < 4 then s
      else if (s.length : ℤ) < 4 + announcedSize s then s.drop 4
      else s.drop (4 + (announcedSize s).toNat)
  | .vector elem, s =>
      if s.length < 4 then s else (behind elem)^[announcedCount s] (s.drop 4)

/-- **The sizes announced in the bytes are right.** A string is as long
as it says, the size of a stream is not negative, and a vector has no
more elements than there are bytes behind its size, whose own sizes are
right. -/
def Announces : Ty → DataStream → Prop
  | .string, s => 4 ≤ s.length → 0 ≤ announcedSize s ∧ 4 + announcedSize s ≤ s.length
  | .dataStream, s => 4 ≤ s.length → 0 ≤ announcedSize s
  | .vector elem, s => 4 ≤ s.length → announcedCount s + 4 ≤ s.length ∧
      ∀ i < announcedCount s, Announces elem ((behind elem)^[i] (s.drop 4))
  | _, _ => True

theorem pop_size_eq (hshort : ¬ s.length < 4) :
    Layout.int32.pop 0 s = (Layout.int32.ofBytes (s.take 4), s.drop 4) :=
  Layout.pop_of_le (Nat.not_lt.1 hshort)

theorem takeRange_drop (hshort : ¬ s.length < 4) (hsize : 0 ≤ announcedSize s) :
    takeRange (s.drop 4) (Layout.int32.ofBytes (s.take 4))
      = if 4 + announcedSize s ≤ s.length then
          some ((s.drop 4).take (announcedSize s).toNat, s.drop (4 + (announcedSize s).toNat))
        else none := by
  have hlen : (s.drop 4).length = s.length - 4 := List.length_drop
  rw [announcedSize] at hsize ⊢
  rw [takeRange, if_neg (Int.not_lt.2 hsize), takeFront, List.drop_drop]
  split_ifs <;> first | rfl | omega

theorem takeRange_of_neg {nSize : Int32} (h : nSize.toInt < 0) : takeRange s nSize = none :=
  if_pos h

theorem ofBytes_eq_zero : Layout.int32.ofBytes (s.take 4) = 0 ↔ announcedSize s = 0 := by
  rw [← Int32.toInt_inj, Int32.toInt_zero]
  rfl

theorem popString_spec (s : DataStream) (data : List UInt8) :
    ((popString s data).isSome ↔ Announces .string s) ∧
      ∀ v r, popString s data = some (v, r) → r = behind .string s := by
  by_cases hshort : s.length < 4
  · rw [popString, if_pos hshort]
    refine ⟨⟨fun _ h => absurd hshort (by omega), fun _ => rfl⟩, fun v r h => ?_⟩
    cases h
    exact (if_pos hshort).symm
  have hbehind : behind .string s = s.drop (4 + (announcedSize s).toNat) := if_neg hshort
  rw [popString, if_neg hshort, hbehind]
  simp only [pop_size_eq hshort, ofBytes_eq_zero]
  rcases lt_trichotomy (announcedSize s) 0 with hneg | hzero | hpos
  · rw [if_neg hneg.ne, takeRange_of_neg hneg]
    exact ⟨⟨nofun, fun h => absurd (h (by omega)).1 (by omega)⟩, nofun⟩
  · rw [if_pos hzero]
    refine ⟨⟨fun _ _ => by omega, fun _ => rfl⟩, fun v r h => ?_⟩
    cases h
    rw [hzero]
    rfl
  · rw [if_neg hpos.ne', takeRange_drop hshort hpos.le]
    by_cases hle : 4 + announcedSize s ≤ s.length
    · rw [if_pos hle]
      refine ⟨⟨fun _ _ => ⟨hpos.le, hle⟩, fun _ => rfl⟩, fun v r h => ?_⟩
      cases h
      rfl
    · rw [if_neg hle]
      exact ⟨⟨nofun, fun h => absurd (h (by omega)).2 hle⟩, nofun⟩

theorem popStream_spec (s : DataStream) (value : List UInt8) :
    ((popStream s value).isSome ↔ Announces .dataStream s) ∧
      ∀ v r, popStream s value = some (v, r) → r = behind .dataStream s := by
  by_cases hshort : s.length < 4
  · rw [popStream, if_pos hshort]
    refine ⟨⟨fun _ h => absurd hshort (by omega), fun _ => rfl⟩, fun v r h => ?_⟩
    cases h
    exact (if_pos hshort).symm
  have hbehind : behind .dataStream s = if (s.length : ℤ) < 4 + announcedSize s then s.drop 4
      else s.drop (4 + (announcedSize s).toNat) := if_neg hshort
  have hlen : (s.drop 4).length = s.length - 4 := List.length_drop
  have hlong : ((s.drop 4).length : ℤ) < (Layout.int32.ofBytes (s.take 4)).toInt
      ↔ (s.length : ℤ) < 4 + announcedSize s := by
    rw [hlen, announcedSize]
    omega
  rw [popStream, if_neg hshort, hbehind]
  simp only [pop_size_eq hshort, ofBytes_eq_zero, hlong]
  rcases lt_trichotomy (announcedSize s) 0 with hneg | hzero | hpos
  · rw [if_neg hneg.ne, if_neg (by omega), takeRange_of_neg hneg]
    exact ⟨⟨nofun, fun h => absurd (h (by omega)) (by omega)⟩, nofun⟩
  · rw [if_pos hzero, if_neg (by omega)]
    refine ⟨⟨fun _ _ => by omega, fun _ => rfl⟩, fun v r h => ?_⟩
    cases h
    rw [hzero]
    rfl
  · rw [if_neg hpos.ne', takeRange_drop hshort hpos.le]
    refine ⟨⟨fun _ _ => hpos.le, fun _ => ?_⟩, fun v r h => ?_⟩
    · by_cases hle : (s.length : ℤ) < 4 + announcedSize s
      · rw [if_pos hle]
        rfl
      · rw [if_neg hle, if_pos (by omega)]
        rfl
    · split_ifs at h ⊢
      all_goals
        cases h
        rfl

section Elements

variable {α : Type} {pop : DataStream → Option (α × DataStream)} {next : DataStream → DataStream}
variable (hnext : ∀ s v r, pop s = some (v, r) → r = next s)

include hnext

theorem popElems_next {n : ℕ} {data all : List α} (h : popElems pop n s data = some (all, r)) :
    r = next^[n] s := by
  induction n generalizing s data with
  | zero =>
    cases h
    rfl
  | succ n ih =>
    obtain ⟨⟨x, s₁⟩, hx, hrest⟩ := Option.bind_eq_some_iff.1 h
    rw [Function.iterate_succ_apply, ← hnext _ _ _ hx]
    exact ih hrest

/-- The loop succeeds when each of its pops does. -/
theorem popElems_isSome_iff {n : ℕ} {data : List α} :
    (popElems pop n s data).isSome ↔ ∀ i < n, (pop (next^[i] s)).isSome := by
  induction n generalizing s data with
  | zero => exact ⟨fun _ i hi => absurd hi (Nat.not_lt_zero i), fun _ => rfl⟩
  | succ n ih =>
    constructor
    · intro h i hi
      obtain ⟨⟨all, r⟩, hall⟩ := Option.isSome_iff_exists.1 h
      obtain ⟨⟨x, s₁⟩, hx, hrest⟩ := Option.bind_eq_some_iff.1 hall
      cases i with
      | zero => exact Option.isSome_of_eq_some hx
      | succ i =>
        rw [Function.iterate_succ_apply, ← hnext _ _ _ hx]
        exact ih.1 (Option.isSome_of_eq_some hrest) i (Nat.lt_of_succ_lt_succ hi)
    · intro h
      obtain ⟨⟨x, s₁⟩, hx⟩ := Option.isSome_iff_exists.1 (h 0 (Nat.succ_pos n))
      rw [Function.iterate_zero_apply] at hx
      rw [popElems, hx, Option.bind_some]
      refine ih.2 fun i hi => ?_
      have hi' := h (i + 1) (Nat.succ_lt_succ hi)
      rwa [Function.iterate_succ_apply, ← hnext _ _ _ hx] at hi'

end Elements

theorem popCount_of_short (hshort : s.length < 4) : popCount s = (0, s) :=
  Layout.pop_of_lt hshort

theorem popCount_eq (hshort : ¬ s.length < 4) :
    popCount s = (Layout.uint32.ofBytes (s.take 4), s.drop 4) :=
  Layout.pop_of_le (Nat.not_lt.1 hshort)

/-- **What a pop leaves.** -/
theorem popValue_behind (t : Ty) (s r : DataStream) (v : t.Val)
    (h : popValue t s t.initial = some (v, r)) : r = behind t s := by
  induction t generalizing s r with
  | scalar k =>
    have hpop : k.layout.pop (Ty.scalar k).initial s = (v, r) := Option.some.inj h
    rw [behind]
    by_cases hshort : s.length < k.layout.size
    · rw [Layout.pop_of_lt hshort] at hpop
      rw [if_pos hshort]
      exact (congrArg Prod.snd hpop).symm
    · rw [Layout.pop_of_le (Nat.not_lt.1 hshort)] at hpop
      rw [if_neg hshort]
      exact (congrArg Prod.snd hpop).symm
  | unsignedLong =>
    have hpop : popUnsignedLong s 0 = (v, r) := Option.some.inj h
    rw [behind]
    rw [popUnsignedLong] at hpop
    split_ifs at hpop ⊢ with hshort
    · exact (congrArg Prod.snd hpop).symm
    · rw [Layout.pop_of_le (by exact (Nat.not_le.1 hshort).le)] at hpop
      exact (congrArg Prod.snd hpop).symm
  | string => exact (popString_spec s _).2 v r h
  | dataStream => exact (popStream_spec s _).2 v r h
  | vector elem ih =>
    have hnext : ∀ s v r, popValue elem s elem.initial = some (v, r) → r = behind elem s :=
      fun s v r => ih s r v
    have hr := popElems_next hnext h
    rw [behind]
    split_ifs with hshort
    · rwa [popCount_of_short hshort] at hr
    · rwa [popCount_eq hshort] at hr

/-- **When a pop is safe.** -/
theorem popsSafely_iff (t : Ty) (s : DataStream) : PopsSafely t s ↔ Announces t s := by
  induction t generalizing s with
  | scalar k => exact ⟨fun _ => trivial, fun _ => ⟨rfl, trivial⟩⟩
  | unsignedLong => exact ⟨fun _ => trivial, fun _ => ⟨rfl, trivial⟩⟩
  | string => exact (and_iff_left trivial).trans (popString_spec s _).1
  | dataStream => exact (and_iff_left trivial).trans (popStream_spec s _).1
  | vector elem ih =>
    have hnext : ∀ s v r, popValue elem s elem.initial = some (v, r) → r = behind elem s :=
      fun s v r => popValue_behind elem s r v
    rw [PopsSafely, LoopsEnd, Announces, popValue, popElems_isSome_iff hnext]
    by_cases hshort : s.length < 4
    · rw [popCount_of_short hshort]
      exact ⟨fun _ h => absurd hshort (by omega),
        fun _ => ⟨fun i hi => absurd hi (Nat.not_lt_zero i), Nat.zero_le _,
          fun i hi => absurd hi (Nat.not_lt_zero i)⟩⟩
    have hlen : (s.drop 4).length = s.length - 4 := List.length_drop
    have hcount : (Layout.uint32.ofBytes (s.take 4)).toNat = announcedCount s := rfl
    rw [popCount_eq hshort]
    simp only [hcount, hlen]
    constructor
    · rintro ⟨hsome, hle, hloops⟩ -
      refine ⟨by omega, fun i hi => (ih _).1 ⟨hsome i hi, ?_⟩⟩
      -- the pops before the i-th succeed, and lead to the stream it is made on
      obtain ⟨⟨data, r⟩, hdata⟩ := Option.isSome_iff_exists.1 ((popElems_isSome_iff hnext).2
        fun j hj => hsome j (Nat.lt_trans hj hi))
      rw [← popElems_next hnext hdata]
      exact hloops i hi data r hdata
    · intro h
      obtain ⟨hle, helems⟩ := h (by omega)
      refine ⟨fun i hi => ((ih _).2 (helems i hi)).1, by omega, fun i hi data r hdata => ?_⟩
      rw [popElems_next hnext hdata]
      exact ((ih _).2 (helems i hi)).2

/-- **When pushed values come back and a pop of any bytes is safe.** -/
theorem data_stream_iff (vs : List Typed) (s : DataStream) (hpush : pushAll [] vs = some s)
    (t : Ty) (content : DataStream) :
    popAll (vs.map Sigma.fst) s = some (vs, []) ∧ PopsSafely t content ↔
      ((∀ v ∈ vs, vectorStreamBytes v.1 v.2 = 0) ∧ ¬ LastEndsInLong vs) ∧ Announces t content :=
  and_congr (popAll_iff hpush) (popsSafely_iff t content)

/-- A text and a vector of two shorts, and a text that announces more
bytes than there are. -/
theorem data_stream_iff_text :
    let vs : List Typed := [⟨.string, [104, 105]⟩, ⟨.vector (.scalar .unsignedShort), [1, 2]⟩]
    let s : DataStream := [2, 0, 0, 0, 104, 105, 2, 0, 0, 0, 1, 0, 2, 0]
    popAll (vs.map Sigma.fst) s = some (vs, []) ∧ PopsSafely .string [9, 0, 0, 0, 104] ↔
      ((∀ v ∈ vs, vectorStreamBytes v.1 v.2 = 0) ∧ ¬ LastEndsInLong vs) ∧
        Announces .string [9, 0, 0, 0, 104] :=
  data_stream_iff [⟨.string, [104, 105]⟩, ⟨.vector (.scalar .unsignedShort), [1, 2]⟩] _ rfl .string _

/-- A single `unsigned long` is not popped again. -/
theorem unsigned_long_stays :
    ¬ ∀ (vs : List Typed) (s : DataStream), pushAll [] vs = some s →
      ∀ (t : Ty) (content : DataStream),
        popAll (vs.map Sigma.fst) s = some (vs, []) ∧ PopsSafely t content := by
  intro h
  have hback := (h [⟨.unsignedLong, (7 : UInt32)⟩] [7, 0, 0, 0] rfl .string []).1
  have hpop : popAll [.unsignedLong] [7, 0, 0, 0]
      = some ([⟨.unsignedLong, (0 : UInt32)⟩], [7, 0, 0, 0]) := rfl
  exact absurd (congrArg (Option.map Prod.snd) (hback.symm.trans hpop)) (by decide)

end GameServer.GlobalDefine.DataStream
