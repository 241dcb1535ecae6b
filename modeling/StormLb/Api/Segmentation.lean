import StormLb.Api.ReadRequest

/-!
# A request, wherever its stream is cut

What `read_request` returns depends on the cuts where the head ends within one
read past the limit: a head that came with that read is accepted, one that came
in smaller pieces is not.  Everywhere else the cuts do not matter.
-/

namespace StormLb.Api

open StormLb.Net StormLb.Text StormLb.Router

/-! ## The end of the head -/

/-- How reading the head of a stream ends, whatever its cuts. -/
inductive HeadRead (bytes : List UInt8) :
    Except Failure (List UInt8 × Nat × Segments UInt8) → Prop where
  | found (buf : List UInt8) (headEnd : Nat) (s : Segments UInt8)
      (whole : buf ++ s.items = bytes) (ends : findHeadEnd buf = some headEnd)
      (short : buf.length ≤ maxHead + 4096) : HeadRead bytes (.ok (buf, headEnd, s))
  | tooLong (message : String) (long : maxHead < bytes.length)
      (late : ∀ headEnd, findHeadEnd bytes = some headEnd → maxHead + 1 < headEnd) :
      HeadRead bytes (.error (431, message))
  | closed (message : String) (short : bytes.length ≤ maxHead) (endless : findHeadEnd bytes = none) :
      HeadRead bytes (.error (400, message))

theorem headRead (buf : List UInt8) (s : Segments UInt8) (short : buf.length ≤ maxHead + 4096) :
    HeadRead (buf ++ s.items) (readHead buf s) := by
  fun_induction readHead buf s with
  | case1 buf s headEnd ends => exact .found buf headEnd s rfl ends short
  | case2 buf s endless long =>
      refine .tooLong _ (by rw [List.length_append]; omega) fun headEnd ends => ?_
      have later := length_lt_of_incomplete (List.prefix_append buf s.items) ends endless
      omega
  | case3 buf s endless within ended =>
      have none : s.items = [] :=
        (s.read_eq_nil_iff (by decide)).mp (List.length_eq_zero_iff.mp ended)
      rw [none, List.append_nil]
      exact .closed _ (Nat.le_of_not_lt within) endless
  | case4 buf s endless within more ih =>
      have whole := s.read_append 4096
      have few := s.read_length_le 4096
      rw [List.append_assoc, whole] at ih
      refine ih ?_
      rw [List.length_append]
      omega

/-! ## The rest of the request -/

theorem readBody_eq (length : Nat) (body : List UInt8) (s : Segments UInt8) :
    readBody length body s = if length ≤ (body ++ s.items).length then
      .ok ((body ++ s.items).take length)
    else .error (400, "connection closed before the body ended") := by
  fun_induction readBody length body s with
  | case1 body s short ended =>
      have none : s.items = [] :=
        (s.read_eq_nil_iff (by decide)).mp (List.length_eq_zero_iff.mp ended)
      rw [none, List.append_nil, if_neg (Nat.not_le.mpr short)]
  | case2 body s short more ih =>
      rw [ih, List.append_assoc, s.read_append]
  | case3 body s long =>
      have enough := Nat.le_of_not_lt long
      rw [List.length_append, if_pos (Nat.le_add_right_of_le enough),
        List.take_append_of_le_length enough]

/-- The request of a stream whose head ends there. -/
def wholeRequest (debug : String → String) (bytes : List UInt8) (headEnd : Nat) :
    Except Failure Request := do
  let announced ← parseHead debug (bytes.take headEnd)
  if announced.length ≤ (bytes.drop headEnd).length then
    return { method := announced.method, path := announced.path
             authorization := announced.authorization
             body := (bytes.drop headEnd).take announced.length }
  else .error (400, "connection closed before the body ended")

/-- The head can be parsed, and the body it announces is there. -/
def WellFormed (debug : String → String) (bytes : List UInt8) (headEnd : Nat) : Prop :=
  ∃ announced, parseHead debug (bytes.take headEnd) = .ok announced ∧
    announced.length ≤ (bytes.drop headEnd).length

/-- How reading a request ends, whatever the cuts. -/
inductive RequestRead (debug : String → String) (bytes : List UInt8) :
    Except Failure Request → Prop where
  | parsed (headEnd : Nat) (ends : findHeadEnd bytes = some headEnd)
      (early : headEnd ≤ maxHead + 4096) :
      RequestRead debug bytes (wholeRequest debug bytes headEnd)
  | tooLong (message : String) (long : maxHead < bytes.length)
      (late : ∀ headEnd, findHeadEnd bytes = some headEnd → maxHead + 1 < headEnd) :
      RequestRead debug bytes (.error (431, message))
  | closed (message : String) (short : bytes.length ≤ maxHead)
      (endless : findHeadEnd bytes = none) : RequestRead debug bytes (.error (400, message))

section

variable {debug : String → String} {bytes : List UInt8} {headEnd : Nat}

/-- Once the head is found, the cuts do not matter. -/
theorem readRequest_of_found {s left : Segments UInt8} {buf : List UInt8}
    (found : readHead [] s = .ok (buf, headEnd, left)) (ends : findHeadEnd buf = some headEnd) :
    readRequest debug s = wholeRequest debug (buf ++ left.items) headEnd := by
  have within := (findHeadEnd_le ends).2
  have head : (buf ++ left.items).take headEnd = buf.take headEnd :=
    List.take_append_of_le_length within
  have body : (buf ++ left.items).drop headEnd = buf.drop headEnd ++ left.items :=
    List.drop_append_of_le_length within
  rw [wholeRequest, head, body, readRequest, found]
  simp only [bind, Except.bind, readBody_eq]
  cases parseHead debug (buf.take headEnd) with
  | error failure => rfl
  | ok announced =>
      dsimp only
      by_cases long : announced.length ≤ (buf.drop headEnd ++ left.items).length
      · rw [if_pos long, if_pos long]
      · rw [if_neg long, if_neg long]

theorem requestRead (s : Segments UInt8) : RequestRead debug s.items (readRequest debug s) := by
  have read := headRead [] s (Nat.zero_le _)
  rw [List.nil_append] at read
  cases found : readHead [] s with
  | error failure =>
      have same : readRequest debug s = .error failure := by
        rw [readRequest, found]
        rfl
      rw [same]
      rw [found] at read
      cases read with
      | tooLong message long late => exact .tooLong message long late
      | closed message short endless => exact .closed message short endless
  | ok result =>
      obtain ⟨buf, headEnd, left⟩ := result
      rw [found] at read
      cases read with
      | found _ _ _ whole ends short =>
          rw [readRequest_of_found found ends, whole]
          refine .parsed headEnd ?_ ?_
          · rw [← whole]
            exact findHeadEnd_append left.items ends
          · exact (findHeadEnd_le ends).2.trans short

theorem wholeRequest_eq_ok_iff :
    (∃ req, wholeRequest debug bytes headEnd = .ok req) ↔ WellFormed debug bytes headEnd := by
  unfold wholeRequest WellFormed
  cases parsed : parseHead debug (bytes.take headEnd) with
  | error failure =>
      constructor
      · rintro ⟨req, impossible⟩
        cases impossible
      · rintro ⟨announced, impossible, _⟩
        cases impossible
  | ok announced =>
      simp only [bind, Except.bind]
      constructor
      · rintro ⟨req, ok⟩
        split at ok
        · rename_i long
          exact ⟨announced, rfl, long⟩
        · cases ok
      · rintro ⟨other, same, long⟩
        cases same
        rw [if_pos long]
        exact ⟨_, rfl⟩

/-! ## The status of a request that is refused -/

theorem readLines_status {announced : Nat × Option String} {lines : List (List Char)}
    {failure : Failure} (fails : readLines debug announced lines = .error failure) :
    failure.1 ≠ 431 := by
  induction lines generalizing announced with
  | nil => cases fails
  | cons l rest ih =>
      obtain ⟨length, authorization⟩ := announced
      rw [readLines] at fails
      split at fails
      · exact ih fails
      · dsimp only at fails
        split at fails
        · split at fails
          · exact ih fails
          · cases fails
            exact (by decide : (400 : UInt16) ≠ 431)
        · split at fails
          · exact ih fails
          · split at fails
            · cases fails
              exact (by decide : (411 : UInt16) ≠ 431)
            · exact ih fails

theorem parseHead_status {head : List UInt8} {failure : Failure}
    (fails : parseHead debug head = .error failure) : failure.1 ≠ 431 := by
  have badRequest : (400 : UInt16) ≠ 431 := by decide
  unfold parseHead at fails
  split at fails
  · cases fails
    exact badRequest
  · dsimp only at fails
    split at fails
    · split at fails
      · cases fails
        exact badRequest
      · split at fails
        · rename_i lines
          cases fails
          exact readLines_status lines
        · split at fails
          · cases fails
            exact (by decide : (413 : UInt16) ≠ 431)
          · cases fails
    · cases fails
      exact badRequest

/-- A head that is found is not too large. -/
theorem wholeRequest_status {failure : Failure}
    (fails : wholeRequest debug bytes headEnd = .error failure) : failure.1 ≠ 431 := by
  unfold wholeRequest at fails
  cases parsed : parseHead debug (bytes.take headEnd) with
  | error other =>
      rw [parsed] at fails
      cases fails
      exact parseHead_status parsed
  | ok announced =>
      rw [parsed] at fails
      simp only [bind, Except.bind] at fails
      split at fails
      · cases fails
      · cases fails
        exact (by decide : (400 : UInt16) ≠ 431)

end

/-! ## Two ways of cutting -/

/-- Byte by byte, and then as it comes. -/
def slowly (front : List UInt8) (s : Segments UInt8) : Segments UInt8 where
  parts := front.map (fun b => [b]) ++ s.parts
  nonempty := by
    intro part member
    rcases List.mem_append.mp member with single | later
    · obtain ⟨b, _, rfl⟩ := List.mem_map.mp single
      exact List.cons_ne_nil _ _
    · exact s.nonempty part later

/-- All at once. -/
def atOnce (bytes : List UInt8) : Segments UInt8 where
  parts := if bytes = [] then [] else [bytes]
  nonempty := by
    intro part member
    split at member
    · cases member
    · rename_i some
      obtain rfl := List.mem_singleton.mp member
      exact some

theorem slowly_items (front : List UInt8) (s : Segments UInt8) :
    (slowly front s).items = front ++ s.items := by
  induction front with
  | nil => rfl
  | cons b rest ih => exact congrArg (b :: ·) ih

theorem atOnce_items (bytes : List UInt8) : (atOnce bytes).items = bytes := by
  unfold atOnce Segments.items
  dsimp only
  split
  · rename_i empty
    exact empty.symm
  · exact List.append_nil bytes

/-- What comes byte by byte is read byte by byte, within the limit. -/
theorem readHead_slowly {buf front : List UInt8} (s : Segments UInt8)
    (within : (buf ++ front).length ≤ maxHead + 1) (endless : findHeadEnd (buf ++ front) = none) :
    readHead buf (slowly front s) = readHead (buf ++ front) s := by
  induction front generalizing buf with
  | nil => rw [List.append_nil]; rfl
  | cons b rest ih =>
      have step : buf ++ b :: rest = (buf ++ [b]) ++ rest := by
        rw [List.append_assoc, List.singleton_append]
      have none : findHeadEnd buf = none := by
        cases ends : findHeadEnd buf with
        | none => rfl
        | some headEnd => cases endless.symm.trans (findHeadEnd_append (b :: rest) ends)
      have room : ¬ maxHead < buf.length := by
        rw [List.length_append, List.length_cons] at within
        omega
      have byte : (slowly (b :: rest) s).read 4096 = ([b], slowly rest s) := rfl
      rw [step] at within endless ⊢
      rw [readHead, none]
      dsimp only
      rw [dif_neg room, byte, dif_neg (by simp)]
      exact ih within endless

section

variable {debug : String → String} {bytes : List UInt8} {headEnd : Nat}

/-- What stops short of the head's end has none. -/
theorem findHeadEnd_take (ends : findHeadEnd bytes = some headEnd) {n : Nat} (short : n < headEnd) :
    findHeadEnd (bytes.take n) = none := by
  cases early : findHeadEnd (bytes.take n) with
  | none => rfl
  | some other =>
      have same := findHeadEnd_append (bytes.drop n) early
      rw [List.take_append_drop, ends] at same
      have within := (findHeadEnd_le early).2
      rw [List.length_take, ← Option.some.inj same] at within
      omega

/-- Cut after each byte as far as `n`. -/
def cutAt (n : Nat) (bytes : List UInt8) : Segments UInt8 :=
  slowly (bytes.take n) (atOnce (bytes.drop n))

theorem cutAt_items (n : Nat) (bytes : List UInt8) : (cutAt n bytes).items = bytes := by
  rw [cutAt, slowly_items, atOnce_items, List.take_append_drop]

theorem readHead_cutAt {n : Nat} (ends : findHeadEnd bytes = some headEnd) (short : n < headEnd)
    (within : n ≤ maxHead + 1) :
    readHead [] (cutAt n bytes) = readHead (bytes.take n) (atOnce (bytes.drop n)) := by
  have few := List.length_take_le n bytes
  exact readHead_slowly _ (few.trans within) (findHeadEnd_take ends short)

/-- In small pieces, a head past the limit is refused. -/
theorem readRequest_small (ends : findHeadEnd bytes = some headEnd) (long : maxHead + 1 < headEnd) :
    ∃ message, readRequest debug (cutAt (maxHead + 1) bytes) = .error (431, message) := by
  have full : (bytes.take (maxHead + 1)).length = maxHead + 1 :=
    List.length_take_of_le (long.le.trans (findHeadEnd_le ends).2)
  have tooLong : readHead [] (cutAt (maxHead + 1) bytes) =
      .error (431, s!"request head over {maxHead} bytes") := by
    rw [readHead_cutAt ends long (Nat.le_refl _), readHead, findHeadEnd_take ends long]
    dsimp only
    rw [dif_pos (by omega)]
  refine ⟨s!"request head over {maxHead} bytes", ?_⟩
  rw [readRequest, tooLong]
  rfl

theorem read_atOnce (max : Nat) (bytes : List UInt8) :
    ((atOnce bytes).read max).1 = bytes.take max := by
  cases bytes with
  | nil => exact List.take_nil.symm
  | cons b rest =>
      simp only [atOnce, Segments.read, reduceCtorEq, if_false]
      split
      · rfl
      · rename_i whole
        exact (List.take_of_length_le (Nat.le_of_not_lt whole)).symm

/-- With one read past the limit, it is found. -/
theorem readRequest_large (ends : findHeadEnd bytes = some headEnd) (long : maxHead < headEnd)
    (early : headEnd ≤ maxHead + 4096) :
    readRequest debug (cutAt maxHead bytes) = wholeRequest debug bytes headEnd := by
  have enough := (findHeadEnd_le ends).2
  have full : (bytes.take maxHead).length = maxHead := List.length_take_of_le (by omega)
  have chunk : ((atOnce (bytes.drop maxHead)).read 4096).1 = (bytes.drop maxHead).take 4096 :=
    read_atOnce _ _
  have some : ¬ ((atOnce (bytes.drop maxHead)).read 4096).1.length = 0 := by
    rw [chunk, List.length_take, List.length_drop]
    omega
  have whole := (atOnce (bytes.drop maxHead)).read_append 4096
  rw [atOnce_items] at whole
  have found : findHeadEnd (bytes.take maxHead ++ ((atOnce (bytes.drop maxHead)).read 4096).1) =
      Option.some headEnd := by
    refine @findHeadEnd_of_append _ ((atOnce (bytes.drop maxHead)).read 4096).2.items _ ?_ ?_
    · rw [List.append_assoc, whole, List.take_append_drop, ends]
    · rw [List.length_append, full, chunk, List.length_take, List.length_drop]
      omega
  have read : readHead [] (cutAt maxHead bytes) =
      .ok (bytes.take maxHead ++ ((atOnce (bytes.drop maxHead)).read 4096).1, headEnd,
        ((atOnce (bytes.drop maxHead)).read 4096).2) := by
    rw [readHead_cutAt ends long (Nat.le_succ _), readHead, findHeadEnd_take ends long]
    dsimp only
    rw [dif_neg (by omega), dif_neg some, readHead, found]
  rw [readRequest_of_found read found, List.append_assoc, whole, List.take_append_drop]

end

/-! ## Where the cuts do not matter -/

/-- The same request, or the same status. -/
def Agree : Except Failure Request → Except Failure Request → Prop
  | .ok req, .ok other => req = other
  | .error failure, .error other => failure.1 = other.1
  | _, _ => False

/-- However the stream is cut, the outcome is the same, and no head over the limit is accepted. -/
structure ReadsAlike (debug : String → String) (bytes : List UInt8) : Prop where
  same : ∀ s t : Segments UInt8, s.items = bytes → t.items = bytes →
    Agree (readRequest debug s) (readRequest debug t)
  limited : ∀ (s : Segments UInt8) (req : Request) (headEnd : Nat), s.items = bytes →
    readRequest debug s = .ok req → findHeadEnd bytes = some headEnd → headEnd ≤ maxHead

/-- The head is within the limit, or more than a read past it, or refused one byte past it. -/
def ClearOfLimit (debug : String → String) (bytes : List UInt8) : Prop :=
  ∀ headEnd, findHeadEnd bytes = some headEnd → headEnd ≤ maxHead ∨ maxHead + 4096 < headEnd ∨
    headEnd = maxHead + 1 ∧ ¬ WellFormed debug bytes headEnd

theorem Agree.refl : ∀ result : Except Failure Request, Agree result result
  | .ok _ => rfl
  | .error _ => rfl

section

variable {debug : String → String} {bytes : List UInt8}

/-- A refusal for the head's size agrees with no head that was found. -/
theorem not_agree_wholeRequest {message : String} {headEnd : Nat} :
    ¬ Agree (.error (431, message)) (wholeRequest debug bytes headEnd) := by
  intro alike
  cases whole : wholeRequest debug bytes headEnd with
  | ok req =>
      rw [whole] at alike
      exact alike
  | error failure =>
      rw [whole] at alike
      exact wholeRequest_status whole (Eq.symm alike)

/-- Within one read past the limit, the cuts decide. -/
theorem cuts_matter {headEnd : Nat} (ends : findHeadEnd bytes = some headEnd)
    (long : maxHead + 1 < headEnd) (early : headEnd ≤ maxHead + 4096) :
    ¬ Agree (readRequest debug (cutAt (maxHead + 1) bytes))
      (readRequest debug (cutAt maxHead bytes)) := by
  obtain ⟨message, small⟩ := @readRequest_small debug _ _ ends long
  rw [small, readRequest_large ends (Nat.lt_of_succ_lt long) early]
  exact not_agree_wholeRequest

/-- Clear of the limit, every way of cutting the stream has the same outcome. -/
theorem agree_of_clearOfLimit (clear : ClearOfLimit debug bytes)
    {result other : Except Failure Request} (read : RequestRead debug bytes result)
    (readAgain : RequestRead debug bytes other) : Agree result other := by
  cases read with
  | parsed headEnd ends early =>
      cases readAgain with
      | parsed again endsAgain =>
          obtain rfl := Option.some.inj (ends.symm.trans endsAgain)
          exact Agree.refl _
      | tooLong message long late =>
          have past := late headEnd ends
          rcases clear headEnd ends with within | far | ⟨atLimit, _⟩ <;> omega
      | closed message short endless => cases endless.symm.trans ends
  | tooLong message long late =>
      cases readAgain with
      | parsed headEnd ends early =>
          have past := late headEnd ends
          rcases clear headEnd ends with within | far | ⟨atLimit, _⟩ <;> omega
      | tooLong => exact rfl
      | closed message short => omega
  | closed message short endless =>
      cases readAgain with
      | parsed headEnd ends => cases endless.symm.trans ends
      | tooLong message long => omega
      | closed => exact rfl

/-- What is accepted was parsed from the whole stream. -/
theorem wellFormed_of_readRequest {s : Segments UInt8} {req : Request} {headEnd : Nat}
    (read : readRequest debug s = .ok req) (ends : findHeadEnd s.items = some headEnd) :
    WellFormed debug s.items headEnd ∧ headEnd ≤ maxHead + 4096 := by
  have outcome := @requestRead debug s
  rw [read] at outcome
  generalize result : Except.ok req = accepted at outcome
  cases outcome with
  | parsed again endsAgain early =>
      obtain rfl := Option.some.inj (ends.symm.trans endsAgain)
      exact ⟨wholeRequest_eq_ok_iff.mp ⟨req, result.symm⟩, early⟩
  | tooLong => cases result
  | closed => cases result

/-- The cuts never matter, and no large head is accepted, exactly clear of the limit. -/
theorem readsAlike_iff (debug : String → String) (bytes : List UInt8) :
    ReadsAlike debug bytes ↔ ClearOfLimit debug bytes := by
  constructor
  · intro alike headEnd ends
    by_contra close
    push Not at close
    obtain ⟨long, early, accepted⟩ := close
    by_cases atLimit : headEnd = maxHead + 1
    · have whole : readRequest debug (cutAt maxHead bytes) = wholeRequest debug bytes headEnd :=
        readRequest_large ends long early
      obtain ⟨req, ok⟩ := wholeRequest_eq_ok_iff.mpr (accepted atLimit)
      have limit := alike.limited _ req headEnd (cutAt_items _ _) (whole.trans ok) ends
      omega
    · exact cuts_matter ends (by omega) early
        (alike.same _ _ (cutAt_items _ _) (cutAt_items _ _))
  · intro clear
    constructor
    · intro s t whole wholeAgain
      have read := @requestRead debug s
      have readAgain := @requestRead debug t
      rw [whole] at read
      rw [wholeAgain] at readAgain
      exact agree_of_clearOfLimit clear read readAgain
    · intro s req headEnd whole read ends
      rw [← whole] at ends
      obtain ⟨wellFormed, early⟩ := wellFormed_of_readRequest read ends
      rw [whole] at ends wellFormed
      rcases clear headEnd ends with within | far | ⟨_, malformed⟩
      · exact within
      · exact absurd early (Nat.not_le.mpr far)
      · exact absurd wellFormed malformed

end

/-! ## A request for a long path -/

/-- No head ends where there is no carriage return. -/
theorem findHeadEnd_skip {front : List UInt8} (plain : ∀ b ∈ front, b ≠ 13) (rest : List UInt8) :
    findHeadEnd (front ++ rest) = (findHeadEnd rest).map (· + front.length) := by
  induction front with
  | nil => exact Option.map_id'.symm
  | cons b front ih =>
      have apart : ¬ blankLine <+: b :: (front ++ rest) := fun here =>
        plain b List.mem_cons_self (List.cons_prefix_cons.mp here).1.symm
      rw [List.cons_append, findHeadEnd, if_neg apart,
        ih fun other member => plain other (List.mem_cons_of_mem b member), Option.map_map]
      rfl

/-- `GET /aa…a HTTP/1.1`, with a path of 16385 bytes. -/
def longRequest : List UInt8 :=
  utf8 "GET /".toList ++ (List.replicate maxHead 97 ++ utf8 " HTTP/1.1\r\n\r\n".toList)

theorem findHeadEnd_longRequest : findHeadEnd longRequest = some (maxHead + 18) := by
  have line : findHeadEnd (utf8 " HTTP/1.1\r\n\r\n".toList) = some 13 := by decide +kernel
  have method : ∀ b ∈ utf8 "GET /".toList, b ≠ 13 := by decide +kernel
  have path : ∀ b ∈ List.replicate maxHead (97 : UInt8), b ≠ 13 := by
    intro b member
    rw [List.eq_of_mem_replicate member]
    decide
  rw [longRequest, findHeadEnd_skip method, findHeadEnd_skip path, line, List.length_replicate]
  rfl

/-- Read to the limit and then in one piece, it is accepted as far as its size goes; read one
byte past the limit, it is refused. -/
theorem longRequest_differs : ¬ ∃ debug, ReadsAlike debug longRequest := by
  rintro ⟨debug, alike⟩
  refine cuts_matter findHeadEnd_longRequest ?_ ?_
    (alike.same _ _ (cutAt_items (maxHead + 1) _) (cutAt_items maxHead _))
  · exact Nat.add_lt_add_left (by decide) maxHead
  · exact Nat.add_le_add_left (by decide) maxHead

end StormLb.Api
