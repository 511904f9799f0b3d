import ViewRendering.Proofs.Command.Work
import ViewRendering.Proofs.Service.RawSection

/-!
The head of a response above its page, as a command prints it. The lines up to the first empty one
are the head, whatever is in the page; what stands behind is the page, and one line of the head says
how many octets that are.
-/
namespace ViewRendering.Command

open Text.Utf8 (encode)

def newline : UInt8 := 10

def colon : UInt8 := 58

/-- The lines in front of the first empty line, and what stands behind it. The octets of the line
at hand that have been read stand apart. -/
def cutAtEmptyLine? (line : List UInt8) : List UInt8 → Option (List (List UInt8) × List UInt8)
  | [] => none
  | b :: s =>
    if b = newline then
      if line = [] then some ([], s)
      else (cutAtEmptyLine? [] s).map fun r => (line :: r.1, r.2)
    else cutAtEmptyLine? (line ++ [b]) s

def smallOctet (b : UInt8) : UInt8 := if 65 ≤ b ∧ b ≤ 90 then b + 32 else b

def fieldName (line : List UInt8) : List UInt8 := (line.takeWhile (· ≠ colon)).map smallOctet

def isLengthLine (line : List UInt8) : Bool := fieldName line == encode "content-length".toList

theorem cutAtEmptyLine?_append {line : List UInt8} (hline : newline ∉ line) (read s : List UInt8) :
    cutAtEmptyLine? read (line ++ newline :: s) =
      if read ++ line = [] then some ([], s)
      else (cutAtEmptyLine? [] s).map fun r => ((read ++ line) :: r.1, r.2) := by
  -- what has been read grows by an octet in each step
  induction line generalizing read with
  | nil =>
    rw [List.nil_append, List.append_nil, cutAtEmptyLine?, if_pos rfl]
  | cons b line ih =>
    obtain ⟨hb, hrest⟩ := not_or.mp (mt List.mem_cons.mpr hline)
    rw [List.cons_append, cutAtEmptyLine?, if_neg (Ne.symm hb), ih hrest, List.append_assoc]
    rfl

/-- Lines that are not empty are cut off as they are at the empty line behind them. -/
theorem cutAtEmptyLine?_lines {lines : List (List UInt8)}
    (h : ∀ line ∈ lines, line ≠ [] ∧ newline ∉ line) (rest : List UInt8) :
    cutAtEmptyLine? [] (lines.flatMap (· ++ [newline]) ++ newline :: rest) =
      some (lines, rest) := by
  induction lines with
  | nil =>
    rw [List.flatMap_nil, List.nil_append, cutAtEmptyLine?, if_pos rfl, if_pos rfl]
  | cons line lines ih =>
    obtain ⟨⟨hne, hnewline⟩, hlines⟩ := List.forall_mem_cons.mp h
    rw [List.flatMap_cons, List.append_assoc, List.append_assoc, List.singleton_append,
      cutAtEmptyLine?_append hnewline, List.nil_append, if_neg hne, ih hlines]
    rfl

theorem toUInt8_ne_of_visible {c : Char} (h : Http.IsVisible c) : c.toUInt8 ≠ newline := by
  intro heq
  have hnat := Http.toNat_toUInt8_of_visible h
  have hten : newline.toNat = 10 := rfl
  rw [heq, hten] at hnat
  rw [Http.IsVisible] at h
  omega

/-- A visible text has one octet for each character, and none of them ends a line. -/
theorem encode_of_visible {s : List Char} (h : ∀ c ∈ s, Http.IsVisible c) :
    encode s = s.map Char.toUInt8 := by
  induction s with
  | nil => rfl
  | cons c s ih =>
    obtain ⟨hc, hs⟩ := List.forall_mem_cons.mp h
    have hascii : c.toNat < 0x80 := by
      rw [Http.IsVisible] at hc
      omega
    rw [Text.Utf8.encode_cons_of_ascii hascii, ih hs, List.map_cons]

theorem newline_not_mem_encode {s : List Char} (h : ∀ c ∈ s, Http.IsVisible c) :
    newline ∉ encode s := by
  rw [encode_of_visible h, List.mem_map]
  rintro ⟨c, hc, heq⟩
  exact toUInt8_ne_of_visible (h c hc) heq

theorem decodeLossy_encode_of_visible {s : List Char} (h : ∀ c ∈ s, Http.IsVisible c) :
    Text.Utf8.decodeLossy (encode s) = s := by
  have hascii : ∀ c ∈ s, c.toNat < 0x80 := by
    intro c hc
    have hvisible := h c hc
    rw [Http.IsVisible] at hvisible
    omega
  rw [Text.Utf8.decodeLossy, Text.Utf8.characters_encode_of_ascii hascii, List.map_map]
  exact List.map_id s

theorem visible_of_all {s : List Char} (h : s.all (fun c => decide (Http.IsVisible c)) = true) :
    ∀ c ∈ s, Http.IsVisible c :=
  fun c hc => of_decide_eq_true (List.all_eq_true.mp h c hc)

theorem visible_digitsOf (n : Nat) : ∀ c ∈ Decimal.digitsOf n, Http.IsVisible c := by
  intro c hc
  have hdigit := Nat.isDigit_of_mem_toDigits (by decide) (by decide) hc
  simp only [Char.isDigit, Bool.and_eq_true, decide_eq_true_eq, ge_iff_le,
    UInt32.le_iff_toNat_le] at hdigit
  have hval : c.val.toNat = c.toNat := rfl
  have hzero : '0'.val.toNat = 48 := rfl
  have hnine : '9'.val.toNat = 57 := rfl
  rw [Http.IsVisible]
  omega

theorem encode_lines (lines : List (List Char)) :
    encode (lines.flatMap (· ++ ['\n']) ++ ['\n']) =
      (lines.map encode).flatMap (· ++ [newline]) ++ [newline] := by
  have hnewline : encode ['\n'] = [newline] := rfl
  rw [Text.Utf8.encode_append, hnewline]
  congr 1
  induction lines with
  | nil => rfl
  | cons line lines ih =>
    rw [List.flatMap_cons, Text.Utf8.encode_append, Text.Utf8.encode_append, hnewline, ih,
      List.map_cons, List.flatMap_cons]

theorem fieldName_field {name : List Char} (h : colon ∉ encode name) (value : List Char) :
    fieldName (encode (name ++ ':' :: value)) = (encode name).map smallOctet := by
  have hcolon : encode (':' :: value) = colon :: encode value := rfl
  have hname : ∀ b ∈ encode name, decide (b ≠ colon) = true := by
    intro b hb
    exact decide_eq_true (ne_of_mem_of_not_mem hb h)
  rw [fieldName, Text.Utf8.encode_append, hcolon, List.takeWhile_append_of_pos hname,
    List.takeWhile_cons_of_neg (by simp), List.append_nil]

def headLines (type : List Char) (length : Nat) : List (List Char) :=
  ["HTTP/1.1 200 OK".toList, "content-type".toList ++ ':' :: ' ' :: type,
    "content-length".toList ++ ':' :: ' ' :: Decimal.digitsOf length]

theorem visible_headLines {type : List Char} (h : ∀ c ∈ type, Http.IsVisible c) (length : Nat) :
    ∀ line ∈ headLines type length, line ≠ [] ∧ ∀ c ∈ line, Http.IsVisible c := by
  have hfield {name value : List Char} (hname : ∀ c ∈ name, Http.IsVisible c)
      (hvalue : ∀ c ∈ value, Http.IsVisible c) :
      ∀ c ∈ name ++ ':' :: ' ' :: value, Http.IsVisible c := by
    intro c hc
    simp only [List.mem_append, List.mem_cons] at hc
    rcases hc with hc | rfl | rfl | hc
    · exact hname c hc
    · decide
    · decide
    · exact hvalue c hc
  intro line hline
  simp only [headLines, List.mem_cons, List.not_mem_nil, or_false] at hline
  rcases hline with rfl | rfl | rfl
  · exact ⟨by decide, visible_of_all (by decide)⟩
  · exact ⟨List.append_ne_nil_of_left_ne_nil (by decide) _, hfield (visible_of_all (by decide)) h⟩
  · exact ⟨List.append_ne_nil_of_left_ne_nil (by decide) _,
      hfield (visible_of_all (by decide)) (visible_digitsOf length)⟩

/-- One of the lines gives the length. -/
theorem filter_headLines (type : List Char) (length : Nat) :
    ((headLines type length).map encode).filter isLengthLine =
      [encode ("content-length: ".toList ++ (toString length).toList)] := by
  have hstatus : isLengthLine (encode "HTTP/1.1 200 OK".toList) = false := by decide
  have htype : isLengthLine (encode ("content-type".toList ++ ':' :: ' ' :: type)) = false := by
    rw [isLengthLine, fieldName_field (by decide)]
    decide
  have hlength : isLengthLine
      (encode ("content-length".toList ++ ':' :: ' ' :: Decimal.digitsOf length)) = true := by
    rw [isLengthLine, fieldName_field (by decide)]
    decide
  have hdigits : (toString length).toList = Decimal.digitsOf length := String.toList_ofList
  rw [hdigits, headLines, List.map_cons, List.map_cons, List.map_cons, List.map_nil,
    List.filter_cons_of_neg (by rw [hstatus]; exact Bool.false_ne_true),
    List.filter_cons_of_neg (by rw [htype]; exact Bool.false_ne_true),
    List.filter_cons_of_pos hlength, List.filter_nil]
  rfl

/-- The head of a response, its media type and length given. -/
theorem headText_eq {head : Http.Head} {type : List Char} {length : Nat}
    (hheaders : head.headers = [⟨Emission.typeName, Emission.octets type⟩,
      ⟨Emission.lengthName, Emission.octets (Decimal.digitsOf length)⟩])
    (htype : ∀ c ∈ type, Http.IsVisible c) :
    headText head = (headLines type length).flatMap (· ++ ['\n']) ++ ['\n'] := by
  have hline {name : String} {value : List Char} (hvalue : ∀ c ∈ value, Http.IsVisible c) :
      headerLine ⟨name, Emission.octets value⟩ =
        (name.toList ++ ':' :: ' ' :: value) ++ ['\n'] := by
    rw [headerLine, Http.Header.text, Emission.octets, decodeLossy_encode_of_visible hvalue,
      List.append_assoc]
  rw [headText, hheaders, List.flatMap_cons, List.flatMap_cons, List.flatMap_nil, hline htype,
    hline (visible_digitsOf length), List.append_nil, headLines]
  simp only [List.flatMap_cons, List.flatMap_nil, List.append_nil, List.append_assoc]
  rfl

/-- A head with a media type and a length is cut off where it ends, whatever stands behind it. -/
theorem cutAtEmptyLine?_headText {head : Http.Head} {type : List Char} {length : Nat}
    (hheaders : head.headers = [⟨Emission.typeName, Emission.octets type⟩,
      ⟨Emission.lengthName, Emission.octets (Decimal.digitsOf length)⟩])
    (htype : ∀ c ∈ type, Http.IsVisible c) (body : List UInt8) :
    cutAtEmptyLine? [] (encode (headText head) ++ body) =
      some ((headLines type length).map encode, body) := by
  have hlines : ∀ line ∈ (headLines type length).map encode, line ≠ [] ∧ newline ∉ line := by
    intro line hline
    obtain ⟨text, htext, rfl⟩ := List.mem_map.mp hline
    obtain ⟨hne, hvisible⟩ := visible_headLines htype length text htext
    refine ⟨?_, newline_not_mem_encode hvisible⟩
    rw [encode_of_visible hvisible, Ne, List.map_eq_nil_iff]
    exact hne
  rw [headText_eq hheaders htype, encode_lines, List.append_assoc, List.singleton_append]
  exact cutAtEmptyLine?_lines hlines body

theorem make_typeName (value : List UInt8) :
    Http.Header.make Emission.typeName value =
      if value.all Http.isValueOctet = true then .ok ⟨Emission.typeName, value⟩
      else .error .headerValue := by
  have hname : (!Http.isToken Emission.typeName.toList ||
      decide (65535 < Emission.typeName.length)) = false := by
    decide
  rw [Http.Header.make, hname]
  cases value.all Http.isValueOctet <;> rfl

/-- The head that a command asks for has a media type at most, and only that can be wrong. -/
theorem draft_eq (c : Command) :
    c.draft = match c.contentType with
      | none => .ok {}
      | some type =>
        if (encode type.toList).all Http.isValueOctet = true then
          .ok { headers := [⟨Emission.typeName, encode type.toList⟩] }
        else .error .headerValue := by
  have hbuild (fields : List (String × List UInt8)) :
      Http.Head.build none fields =
        (Http.Headers.build fields).map fun hs => { headers := hs } := by
    unfold Http.Head.build
    cases Http.Headers.build fields <;> rfl
  have hsingle (value : List UInt8) : Http.Headers.build [(Emission.typeName, value)] =
      (Http.Header.make Emission.typeName value).map fun h => [h] := by
    rw [Http.Headers.build, List.mapM_cons, List.mapM_nil]
    cases Http.Header.make Emission.typeName value <;> rfl
  unfold draft
  rw [hbuild]
  cases c.contentType with
  | none => rfl
  | some type =>
    change (Http.Headers.build [(Emission.typeName, encode type.toList)]).map _ = _
    rw [hsingle, make_typeName]
    dsimp only
    split <;> rfl

theorem exists_draft_iff {c : Command} :
    (∃ head, c.draft = .ok head) ↔
      ∀ type, c.contentType = some type → (encode type.toList).all Http.isValueOctet = true := by
  rw [draft_eq]
  cases c.contentType with
  | none => simp
  | some type =>
    simp only [Option.some.injEq, forall_eq']
    split <;> rename_i hvalue
    · exact iff_of_true ⟨_, rfl⟩ hvalue
    · refine iff_of_false ?_ hvalue
      rintro ⟨head, h⟩
      cases h

/-- The response of a command has the media type and the length of its page and no other field. -/
theorem headers_carrier {c : Command} {head : Http.Head} (h : c.draft = .ok head)
    (page : List Char) :
    (Emission.carrier head page).head.headers = [
      ⟨Emission.typeName,
        Emission.octets (ContentType.withCharset (Emission.firstType head)).1⟩,
      ⟨Emission.lengthName, Emission.octets (Decimal.digitsOf (encode page).length)⟩] := by
  have hheaders : head.headers = [] ∨
      ∃ value, head.headers = [⟨Emission.typeName, value⟩] := by
    rw [draft_eq] at h
    cases htype : c.contentType with
    | none =>
      rw [htype] at h
      cases h
      exact Or.inl rfl
    | some type =>
      rw [htype] at h
      dsimp only at h
      split at h
      · cases h
        exact Or.inr ⟨_, rfl⟩
      · cases h
  rw [Emission.carrier, Emission.framed]
  rcases hheaders with hheaders | ⟨value, hheaders⟩ <;> rw [hheaders] <;> rfl

/-- A command that is refused has printed nothing. Otherwise it prints the page that it renders,
and on request a head above it: cut off at its first empty line, whatever the page holds, what
is printed leaves the page, and a single line in front of it gives a length, which is that of the
page. A command is done exactly if it renders a page and a header can hold its media type. -/
theorem work_all_or_nothing (c : Command) (files : Files) (engine : Template.Engine)
    (p : Progress) :
    (∀ refusal, ((c.work files engine).runFrom p).1 = .error refusal →
      ((c.work files engine).runFrom p).2.output = p.output) ∧
    (((c.work files engine).runFrom p).1 = .ok () →
      ∃ page, c.Renders files engine page ∧
        (c.showHead = false →
          ((c.work files engine).runFrom p).2.output = p.output ++ encode page) ∧
        (c.showHead = true →
          ∃ printed lines, ((c.work files engine).runFrom p).2.output = p.output ++ printed ∧
            cutAtEmptyLine? [] printed = some (lines, encode page) ∧
            lines.filter isLengthLine =
              [encode ("content-length: ".toList ++ (toString (encode page).length).toList)])) ∧
    (((c.work files engine).runFrom p).1 = .ok () ↔
      (∃ page, c.Renders files engine page) ∧
        ∀ type, c.contentType = some type →
          (encode type.toList).all Http.isValueOctet = true) := by
  refine ⟨allOrNothing_work c files engine p, fun hdone => ?_, fun hdone => ?_, ?_⟩
  · obtain ⟨s, o, r, hsettings, hoptions, hresponse⟩ := exists_of_work hdone
    obtain ⟨service, page, head, hservice, hpage, hdraft, rfl⟩ := respond_eq_ok_iff.mp hresponse
    rw [runFrom_work_of_respond hsettings hoptions hresponse]
    refine ⟨page, ⟨s, o, service, hsettings, hoptions, hservice, hpage⟩, fun hshow => ?_,
      fun hshow => ⟨encode (headText (Emission.carrier head page).head) ++ encode page, _, ?_,
        cutAtEmptyLine?_headText (headers_carrier hdraft page) ?_ _, filter_headLines _ _⟩⟩
    · rw [printed, hshow]
      rfl
    · rw [printed, hshow]
      rfl
    · rw [← Emission.declaredType_ok]
      exact Emission.withCharset_visible (.ok head)
  · obtain ⟨s, o, r, hsettings, hoptions, hresponse⟩ := exists_of_work hdone
    obtain ⟨service, page, head, hservice, hpage, hdraft, -⟩ := respond_eq_ok_iff.mp hresponse
    exact ⟨⟨page, s, o, service, hsettings, hoptions, hservice, hpage⟩,
      exists_draft_iff.mp ⟨head, hdraft⟩⟩
  · rintro ⟨⟨page, s, o, service, hsettings, hoptions, hservice, hpage⟩, htype⟩
    obtain ⟨head, hdraft⟩ := exists_draft_iff.mpr htype
    have hresponse := respond_eq_ok_iff.mpr
      ⟨service, page, head, hservice, hpage, hdraft, rfl⟩
    rw [runFrom_work_of_respond hsettings hoptions hresponse]

def headLikePage : List Char := "\n\ncontent-length: 0\n".toList

def headLikeFiles : Files := .ofKnown [("views/page.html", .ok (encode headLikePage))]

theorem work_all_or_nothing_headLike :
    let c : Command :=
      { view := "page.html", noLayout := true, contentType := some "text/plain", showHead := true }
    ((c.work headLikeFiles .plain).runFrom {}).1 = .ok () ∧
      ∃ lines, cutAtEmptyLine? [] ((c.work headLikeFiles .plain).runFrom {}).2.output =
          some (lines, encode headLikePage) ∧
        lines.filter isLengthLine = [encode "content-length: 20".toList] := by
  intro c
  let s : Service := { settings := {}, filters := [], helpers := [] }
  have hpath : s.settings.viewPath (s.settings.viewName c.view) = .ok "views/page.html" := by
    decide +kernel
  have hread : headLikeFiles.read "views/page.html" = .ok headLikePage := by decide +kernel
  obtain ⟨t, hload, hexecute⟩ := Service.load_literal delimiters_default hpath hread
    (by decide +kernel)
  have hsettings : (c.settings headLikeFiles).1 = .ok {} := rfl
  have hoptions : c.options = .ok ({} : Options).withoutLayout := rfl
  have hservice : (Service.build {} [] []).1 = .ok s := rfl
  have htext : (s.renderText headLikeFiles request c.view ({} : Options).withoutLayout).result =
      .ok headLikePage :=
    Service.renderText_withoutLayout rfl (hload _) (fun _ hnone => nomatch hnone) (hexecute _ _)
  have hpage : c.Renders headLikeFiles .plain headLikePage :=
    ⟨{}, _, s, hsettings, hoptions, hservice, htext⟩
  obtain ⟨-, hdone, hiff⟩ := work_all_or_nothing c headLikeFiles .plain {}
  have hok := hiff.mpr ⟨⟨headLikePage, hpage⟩, by rintro type ⟨⟩; decide⟩
  -- the page that the work prints is the one found above
  obtain ⟨page, hrenders, -, hshown⟩ := hdone hok
  obtain ⟨printed, lines, hprinted, hcut, hlength⟩ := hshown rfl
  cases hrenders.unique hpage
  refine ⟨hok, lines, ?_, hlength.trans (by decide +kernel)⟩
  rw [hprinted]
  exact hcut

end ViewRendering.Command
