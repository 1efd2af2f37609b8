import YeounEngine.Numerals
import YeounEngine.Repository
import Mathlib.Algebra.Group.Nat.Defs
import Mathlib.Data.PNat.Defs

/-!
# Streaming a file, whole or in ranges

`parse_range`, the two loops that read a file in chunks, and `_stream_response` over them. The file is what
is served: a clip or a message's video, unchanged while the response is sent.

Each loop sends what is left of the open file, or as much of it as it was asked for, whatever the chunk
size (`flatten_fullIter`, `flatten_rangeLoop`). So the whole response is the file, each range is its slice,
and ranges that tile the file concatenate to it (`streamsExactly`).
-/

namespace YeounEngine

/-! ## `parse_range` -/

/-- `RangeNotSatisfiable`, by the line that raises it. -/
inductive RangeError
  | unit (header : String)
  | multiple
  | number (spec : String)
  | outside (start finish : Int) (size : Nat)
  deriving DecidableEq

/-- The text of the exception, where `repr` is `repr` of a string. -/
def RangeError.message (repr : String → String) : RangeError → String
  | .unit header => "지원되지 않는 unit: " ++ repr header
  | .multiple => "다중 Range 미지원"
  | .number spec => "Range 숫자 파싱 실패: " ++ repr spec
  | .outside start finish size =>
    "Range 가 파일 크기 밖: start=" ++ toString start ++ ", end=" ++ toString finish ++ ", size=" ++ toString size

section
variable (S : IntSyntax)

/-- The `try` of `parse_range`: the bounds as the two texts around the dash give them. None for a
`ValueError`; the error that a suffix of length 0 or less raises is one too. -/
def rangeBounds (startStr endStr : List Char) (fileSize : Nat) : Option (Int × Int) :=
  if startStr = [] then
    (intOf S endStr).bind fun n => if n ≤ 0 then none else some (max 0 (fileSize - n), fileSize - 1)
  else
    (intOf S startStr).bind fun start =>
      if endStr = [] then some (start, fileSize - 1) else (intOf S endStr).map fun finish => (start, finish)

/-- `parse_range`: both bounds are included. -/
def parseRange (header : Option String) (fileSize : Nat) : Except RangeError (Option (Int × Int)) :=
  match header with
  | none => .ok none
  | some header =>
    if header = "" then .ok none
    else if ¬ "bytes=".toList.isPrefixOf header.toList then .error (.unit header)
    else
      let spec := strip (String.ofList (header.toList.drop "bytes=".length))
      if ',' ∈ spec.toList then .error .multiple
      else
        -- `spec.partition("-")`
        let startStr := spec.toList.takeWhile (· ≠ '-')
        let endStr := (spec.toList.dropWhile (· ≠ '-')).drop 1
        match rangeBounds S startStr endStr fileSize with
        | none => .error (.number spec)
        | some (start, finish) =>
          if start < 0 ∨ finish < start ∨ fileSize ≤ start then .error (.outside start finish fileSize)
          else .ok (some (start, min finish (fileSize - 1)))

end

/-! ## The open file and the two loops -/

/-- A file opened for reading, at a position. -/
structure OpenFile where
  content : List UInt8
  pos : Nat

namespace OpenFile

/-- What is still to be read. -/
def rest (f : OpenFile) : List UInt8 := f.content.drop f.pos

/-- `f.seek(pos)`. -/
def seek (f : OpenFile) (pos : Nat) : OpenFile := { f with pos }

/-- `f.read(k)`: the data, and the file behind it. -/
def read (f : OpenFile) (k : Nat) : List UInt8 × OpenFile :=
  (f.rest.take k, f.seek (f.pos + (f.rest.take k).length))

/-- A read takes the front of what is left. -/
theorem read_cases {f f' : OpenFile} {k : Nat} {data : List UInt8} (h : f.read k = (data, f')) :
    data = f.rest.take k ∧ f'.rest = f.rest.drop k := by
  obtain ⟨rfl, rfl⟩ := Prod.mk.inj h
  refine ⟨rfl, ?_⟩
  rw [rest, seek, ← List.drop_drop, List.length_take, ← rest]
  rcases Nat.le_total k f.rest.length with hk | hk
  · rw [Nat.min_eq_left hk]
  · rw [Nat.min_eq_right hk, List.drop_of_length_le hk, List.drop_length]

end OpenFile

/-- `full_iter`: the chunks it yields. -/
def fullIter (chunk : ℕ+) (f : OpenFile) : List (List UInt8) :=
  match _h : f.read chunk with
  | (data, f') => if data = [] then [] else data :: fullIter chunk f'
termination_by f.rest.length
decreasing_by
  rename_i hdata
  obtain ⟨rfl, hrest⟩ := OpenFile.read_cases _h
  have hpos := List.length_pos_of_ne_nil hdata
  rw [List.length_take] at hpos
  rw [hrest, List.length_drop]
  omega

/-- The loop of `iter_file_range`, with `remaining` bytes to send. -/
def rangeLoop (chunkSize : ℕ+) (f : OpenFile) (remaining : Int) : List (List UInt8) :=
  if 0 < remaining then
    match f.read (min chunkSize remaining.toNat) with
    | (data, f') => if data = [] then [] else data :: rangeLoop chunkSize f' (remaining - data.length)
  else []
termination_by remaining.toNat
decreasing_by
  rename_i hdata
  have := List.length_pos_of_ne_nil hdata
  omega

/-- `iter_file_range`: the chunks it yields. `seek` takes no negative position; `parse_range` gives none. -/
def iterFileRange (content : List UInt8) (start finish : Int) (chunkSize : ℕ+) : List (List UInt8) :=
  rangeLoop chunkSize (OpenFile.seek ⟨content, 0⟩ start.toNat) (finish - start + 1)

/-! ## `_stream_response` -/

/-- A file that is served. `st_size` is a signed 64-bit number. -/
structure ServedFile where
  content : List UInt8
  size_lt : content.length < 2 ^ 63

/-- `path.stat().st_size`. -/
def ServedFile.size (file : ServedFile) : Nat := file.content.length

/-- A response whose body is sent in chunks. -/
structure StreamingResponse where
  status : Nat
  mediaType : String
  headers : List (String × String)
  body : List (List UInt8)

/-- The value of a header. -/
def StreamingResponse.header (r : StreamingResponse) (name : String) : Option String := r.headers.lookup name

/-- `416 RANGE_NOT_SATISFIABLE`. -/
structure RangeRejection extends HttpError where
  headers : List (String × String)

def rangeRejection (repr : String → String) (size : Nat) (e : RangeError) : RangeRejection where
  status := 416
  code := "RANGE_NOT_SATISFIABLE"
  message := e.message repr
  headers := [("Content-Range", "bytes */" ++ toString size)]

/-- What the module reads besides the file: the interpreter's `int` and `repr`, and the chunk sizes
`_FULL_CHUNK` and `_RANGE_CHUNK_SIZE`. -/
structure StreamConfig where
  intSyntax : IntSyntax
  repr : String → String
  fullChunk : ℕ+
  rangeChunkSize : ℕ+

/-- `_stream_response`. -/
def streamResponse (C : StreamConfig) (file : ServedFile) (rangeHeader : Option String) (mediaType : String) :
    Except RangeRejection StreamingResponse :=
  match parseRange C.intSyntax rangeHeader file.size with
  | .error e => .error (rangeRejection C.repr file.size e)
  | .ok none => .ok
    { status := 200
      mediaType
      headers := [("Accept-Ranges", "bytes"), ("Content-Length", toString file.size)]
      body := fullIter C.fullChunk ⟨file.content, 0⟩ }
  | .ok (some (start, finish)) => .ok
    { status := 206
      mediaType
      headers := [
        ("Content-Range", "bytes " ++ toString start ++ "-" ++ toString finish ++ "/" ++ toString file.size),
        ("Accept-Ranges", "bytes"),
        ("Content-Length", toString (finish - start + 1))]
      body := iterFileRange file.content start finish C.rangeChunkSize }

/-! ## What the loops send -/

section
variable {chunk : ℕ+} {f : OpenFile} {remaining : Int}

theorem flatten_fullIter : (fullIter chunk f).flatten = f.rest := by
  fun_induction fullIter chunk f with
  | case1 f f' hread =>
    obtain ⟨hdata, -⟩ := OpenFile.read_cases hread
    rcases List.take_eq_nil_iff.mp hdata.symm with hchunk | hrest
    · exact absurd hchunk chunk.ne_zero
    · rw [hrest, List.flatten_nil]
  | case2 f data f' hread _ ih =>
    obtain ⟨rfl, hrest⟩ := OpenFile.read_cases hread
    rw [List.flatten_cons, ih, hrest, List.take_append_drop]

theorem take_append_take_drop {l : List UInt8} {k m : Nat} (h : k ≤ m) :
    l.take k ++ (l.drop k).take (m - (l.take k).length) = l.take m := by
  rcases Nat.le_total k l.length with hk | hk
  · rw [List.length_take_of_le hk, ← List.take_add, Nat.add_sub_cancel' h]
  · rw [List.drop_of_length_le hk, List.take_nil, List.append_nil, List.take_of_length_le hk,
      List.take_of_length_le (hk.trans h)]

theorem flatten_rangeLoop : (rangeLoop chunk f remaining).flatten = f.rest.take remaining.toNat := by
  fun_induction rangeLoop chunk f remaining with
  | case1 f remaining hpos f' hread =>
    obtain ⟨hdata, -⟩ := OpenFile.read_cases hread
    have := chunk.pos
    rcases List.take_eq_nil_iff.mp hdata.symm with hmin | hrest
    · omega
    · rw [hrest, List.flatten_nil, List.take_nil]
  | case2 f remaining hpos data f' hread _ ih =>
    obtain ⟨rfl, hrest⟩ := OpenFile.read_cases hread
    rw [List.flatten_cons, ih, hrest, ← take_append_take_drop (min_le_right chunk.val remaining.toNat)]
    congr 2
    omega
  | case3 f remaining hpos => rw [show remaining.toNat = 0 by omega, List.take_zero, List.flatten_nil]

end

/-! ## What the header asks for -/

section
variable {S : IntSyntax} {n a b : Nat} {header : Option String} {start finish : Int}

/-- The bounds lie in the file, in their order. -/
theorem parseRange_bounds (h : parseRange S header n = .ok (some (start, finish))) :
    0 ≤ start ∧ start ≤ finish ∧ finish < n := by
  unfold parseRange at h
  split at h
  · cases h
  rename_i header
  dsimp only at h
  by_cases hempty : header = ""
  · rw [if_pos hempty] at h
    cases h
  rw [if_neg hempty] at h
  split at h
  · cases h
  split at h
  · cases h
  split at h
  · cases h
  split at h
  · cases h
  · rename_i hout
    obtain ⟨rfl, rfl⟩ := Prod.mk.inj (Option.some.inj (Except.ok.inj h))
    omega

/-- `bytes=a-e`, as a client writes it. -/
def rangeHeader (a e : Nat) : String := "bytes=" ++ (toString a ++ "-" ++ toString e)

theorem toList_rangeSpec (a e : Nat) :
    (toString a ++ "-" ++ toString e).toList = Nat.toDigits 10 a ++ '-' :: Nat.toDigits 10 e := by
  rw [String.toList_append, String.toList_append, show (toString a).toList = _ from Nat.toList_repr,
    show (toString e).toList = _ from Nat.toList_repr, List.append_assoc]
  rfl

/-- Digits and a dash: nothing to strip, and no comma. -/
theorem mem_rangeSpec {c : Char} (h : c ∈ Nat.toDigits 10 a ++ '-' :: Nat.toDigits 10 b) :
    c.isDigit = true ∨ c = '-' := by
  rcases List.mem_append.mp h with h | h
  · exact .inl (isDigit_of_mem_toDigits h)
  · rcases List.mem_cons.mp h with h | h
    · exact .inr h
    · exact .inl (isDigit_of_mem_toDigits h)

theorem strip_rangeSpec (a e : Nat) :
    strip (String.ofList ((rangeHeader a e).toList.drop "bytes=".length)) = toString a ++ "-" ++ toString e := by
  have hdrop : (rangeHeader a e).toList.drop "bytes=".length = (toString a ++ "-" ++ toString e).toList := by
    rw [rangeHeader, String.toList_append]
    exact List.drop_left ..
  have hspace : ∀ c ∈ (toString a ++ "-" ++ toString e).toList, isSpace c = false := by
    intro c hc
    rw [toList_rangeSpec] at hc
    rcases mem_rangeSpec hc with hc | rfl
    · exact isSpace_of_isDigit hc
    · rfl
  rw [strip, hdrop, String.toList_ofList, trim_eq_self hspace, String.ofList_toList]

/-- The two texts around the dash. -/
theorem partition_rangeSpec (a e : Nat) :
    (toString a ++ "-" ++ toString e).toList.takeWhile (· ≠ '-') = (toString a).toList ∧
      ((toString a ++ "-" ++ toString e).toList.dropWhile (· ≠ '-')).drop 1 = (toString e).toList := by
  have hdash : ∀ c ∈ (toString a).toList, decide (c ≠ '-') = true := by
    intro c hc
    rw [show (toString a).toList = _ from Nat.toList_repr] at hc
    have := isDigit_of_mem_toDigits hc
    rw [decide_eq_true_eq]
    rintro rfl
    cases this
  rw [String.toList_append, String.toList_append, List.append_assoc]
  refine ⟨?_, ?_⟩
  · rw [List.takeWhile_append_of_pos hdash]
    exact List.append_nil _
  · rw [List.dropWhile_append_of_pos hdash]
    rfl

/-- A closed range inside the file is read as it is written. -/
theorem parseRange_rangeHeader (hab : a ≤ b) (hb : b < n) (hn : n < 2 ^ 63) :
    parseRange S (some (rangeHeader a b)) n = .ok (some ((a : Int), (b : Int))) := by
  have hne : rangeHeader a b ≠ "" := by
    intro h
    have := congrArg String.toList h
    rw [rangeHeader, String.toList_append] at this
    cases this
  have hbytes : "bytes=".toList.isPrefixOf (rangeHeader a b).toList = true := by
    rw [rangeHeader, String.toList_append, List.isPrefixOf_iff_prefix]
    exact List.prefix_append ..
  have hcomma : ',' ∉ (toString a ++ "-" ++ toString b).toList := by
    rw [toList_rangeSpec]
    intro h
    rcases mem_rangeSpec h with h | h <;> cases h
  have hnonempty : ∀ k : Nat, (toString k).toList ≠ [] := fun k => by
    rw [show (toString k).toList = _ from Nat.toList_repr]
    exact Nat.toDigits_ne_nil
  have hlength : ∀ k < n, (Nat.toDigits 10 k).length ≤ 640 := fun k hk =>
    (Nat.length_toDigits_le_iff (by decide) (by decide)).mpr (by omega)
  have hbounds : rangeBounds S (toString a).toList (toString b).toList n =
      some ((a : Int), (b : Int)) := by
    rw [rangeBounds, if_neg (hnonempty a), intOf_repr (hlength a (by omega)), Option.bind_some, if_neg (hnonempty b),
      intOf_repr (hlength b hb)]
    rfl
  obtain ⟨hstart, hend⟩ := partition_rangeSpec a b
  rw [parseRange, if_neg hne, if_neg (by rw [hbytes]; simp)]
  dsimp only
  rw [strip_rangeSpec, if_neg hcomma, hstart, hend, hbounds]
  dsimp only
  rw [if_neg (by omega), min_eq_left (by omega)]

end

/-! ## The whole file, a range, and ranges that tile the file -/

/-- Bytes `start` to `finish` of a content, both included. -/
def slice (content : List UInt8) (start finish : Nat) : List UInt8 := (content.drop start).take (finish + 1 - start)

/-- `0 = c₀ < c₁ < … < cₖ = n`. -/
structure Cuts (n : Nat) where
  points : List Nat
  increasing : points.IsChain (· < ·)
  first : points.head? = some 0
  last : points.getLast? = some n

/-- The pairs of neighbours. -/
def Cuts.pieces {n : Nat} (cuts : Cuts n) : List (Nat × Nat) := cuts.points.zip cuts.points.tail

/-- The body that a range header gets. -/
def rangeBody (C : StreamConfig) (file : ServedFile) (mediaType : String) (header : String) :
    Except RangeRejection (List UInt8) :=
  (streamResponse C file (some header) mediaType).map fun r => r.body.flatten

/-- A file is streamed without loss or repetition: whole, in any range, and over the ranges of a split. -/
structure StreamsExactly (C : StreamConfig) (file : ServedFile) (mediaType : String) : Prop where
  full : ∃ r, streamResponse C file none mediaType = .ok r ∧ r.status = 200 ∧
    r.header "Content-Length" = some (toString file.size) ∧ r.body.flatten = file.content
  range : ∀ header start finish,
    parseRange C.intSyntax (some header) file.size = .ok (some (start, finish)) →
      0 ≤ start ∧ start ≤ finish ∧ finish < file.size ∧
        ∃ r, streamResponse C file (some header) mediaType = .ok r ∧ r.status = 206 ∧
          r.body.flatten = slice file.content start.toNat finish.toNat ∧
          r.header "Content-Length" = some (toString r.body.flatten.length) ∧
          r.header "Content-Range" = some
            ("bytes " ++ toString start ++ "-" ++ toString finish ++ "/" ++ toString file.size)
  split : ∀ cuts : Cuts file.size, ∃ bodies : List (List UInt8),
    (cuts.pieces.map fun p => rangeBody C file mediaType (rangeHeader p.1 (p.2 - 1))) = bodies.map .ok ∧
      bodies.flatten = file.content

section
variable {C : StreamConfig} {file : ServedFile} {mediaType header : String} {start finish : Int}

theorem flatten_iterFileRange {content : List UInt8} {chunkSize : ℕ+} (h0 : 0 ≤ start) (h : start ≤ finish) :
    (iterFileRange content start finish chunkSize).flatten = slice content start.toNat finish.toNat := by
  rw [iterFileRange, flatten_rangeLoop, slice, OpenFile.rest, OpenFile.seek]
  congr 1
  omega

/-- The response to a header that gives bounds. -/
theorem streamResponse_range (mediaType : String)
    (h : parseRange C.intSyntax (some header) file.size = .ok (some (start, finish))) :
    ∃ r, streamResponse C file (some header) mediaType = .ok r ∧ r.status = 206 ∧
      r.body.flatten = slice file.content start.toNat finish.toNat ∧
      r.header "Content-Length" = some (toString r.body.flatten.length) ∧
      r.header "Content-Range" = some
        ("bytes " ++ toString start ++ "-" ++ toString finish ++ "/" ++ toString file.size) := by
  obtain ⟨h0, hle, hlt⟩ := parseRange_bounds h
  have hbody : (iterFileRange file.content start finish C.rangeChunkSize).flatten =
      slice file.content start.toNat finish.toNat := flatten_iterFileRange h0 hle
  have hlength : finish - start + 1 = (slice file.content start.toNat finish.toNat).length := by
    rw [ServedFile.size] at hlt
    rw [slice, List.length_take, List.length_drop]
    omega
  rw [streamResponse, h]
  refine ⟨_, rfl, rfl, hbody, ?_, rfl⟩
  show some (toString (finish - start + 1)) = _
  rw [hbody, hlength]
  rfl

/-- Neighbouring slices, up to the end, are what is left. -/
theorem tiles {content : List UInt8} {points : List Nat} {a : Nat} (hchain : (a :: points).IsChain (· < ·))
    (hlast : (a :: points).getLast? = some content.length) :
    ((a :: points).zip points).flatMap (fun p => slice content p.1 (p.2 - 1)) = content.drop a := by
  induction points generalizing a with
  | nil =>
    obtain rfl : a = content.length := by simpa using hlast
    rw [List.drop_length]
    rfl
  | cons b points ih =>
    obtain ⟨hab, hchain⟩ := List.isChain_cons_cons.mp hchain
    rw [List.getLast?_cons_cons] at hlast
    rw [List.zip_cons_cons, List.flatMap_cons, ih hchain hlast, slice, show b - 1 + 1 - a = b - a by omega]
    conv_lhs => rw [show b = a + (b - a) by omega, ← List.drop_drop, Nat.add_sub_cancel_left]
    exact List.take_append_drop ..

/-- The neighbours of a split are ranges inside the file. -/
theorem pieces_bounds {points : List Nat} {a n : Nat} (hchain : (a :: points).IsChain (· < ·))
    (hlast : (a :: points).getLast? = some n) : ∀ p ∈ (a :: points).zip points, p.1 < p.2 ∧ p.2 ≤ n := by
  induction points generalizing a with
  | nil => intro p hp; cases hp
  | cons b points ih =>
    obtain ⟨hab, hchain⟩ := List.isChain_cons_cons.mp hchain
    rw [List.getLast?_cons_cons] at hlast
    have hb : b ≤ n := by
      cases points with
      | nil => exact (Option.some.inj hlast).le
      | cons c points =>
        have := ih hchain hlast (b, c) List.mem_cons_self
        omega
    intro p hp
    rcases List.mem_cons.mp hp with rfl | hp
    · exact ⟨hab, hb⟩
    · exact ih hchain hlast p hp

/-- The body for `bytes=a-(b-1)`. -/
theorem rangeBody_rangeHeader {a b : Nat} (hab : a < b) (hb : b ≤ file.size) :
    rangeBody C file mediaType (rangeHeader a (b - 1)) = .ok (slice file.content a (b - 1)) := by
  have hparse : parseRange C.intSyntax (some (rangeHeader a (b - 1))) file.size =
      .ok (some ((a : Int), ((b - 1 : Nat) : Int))) :=
    parseRange_rangeHeader (by omega) (by omega) file.size_lt
  obtain ⟨r, hr, -, hbody, -⟩ := streamResponse_range mediaType hparse
  rw [rangeBody, hr]
  exact congrArg Except.ok hbody

end

/-- A served file is streamed exactly, for all chunk sizes. -/
theorem streamsExactly (C : StreamConfig) (file : ServedFile) (mediaType : String) :
    StreamsExactly C file mediaType where
  full := ⟨_, rfl, rfl, rfl, flatten_fullIter⟩
  range _ _ _ h := by
    obtain ⟨h0, hle, hlt⟩ := parseRange_bounds h
    exact ⟨h0, hle, hlt, streamResponse_range _ h⟩
  split cuts := by
    obtain ⟨points, hchain, hfirst, hlast⟩ := cuts
    cases points with
    | nil => cases hfirst
    | cons a points =>
      obtain rfl : a = 0 := by simpa using hfirst
      have hbounds := pieces_bounds hchain hlast
      refine ⟨((0 :: points).zip points).map fun p => slice file.content p.1 (p.2 - 1), ?_, ?_⟩
      · rw [List.map_map]
        exact List.map_congr_left fun p hp => rangeBody_rangeHeader (hbounds p hp).1 (hbounds p hp).2
      · rw [← List.flatMap_def, tiles hchain hlast, List.drop_zero]

end YeounEngine
