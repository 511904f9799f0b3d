import ViewRendering.Proofs.ContentType.Characters
import ViewRendering.Service

/-!
Putting a page into a response. Whatever a head holds, its response carries exactly the page:
its octets, their number, and a media type that says UTF-8. The status and all other fields
stay as they are. The only thing that can go wrong is a fault that the head brings along.
-/
namespace ViewRendering

theorem Http.Headers.first?_map_value (hs : Http.Headers) (name : String) :
    (hs.first? name).map (·.value) = (hs.valuesOf name).head? := by
  rw [first?, valuesOf, List.head?_map, List.head?_filter]

namespace Emission

/-- The media type of the first field that declares one, if it is visible. -/
def firstType (head : Http.Head) : Option (List Char) :=
  (head.headers.valuesOf typeName).head?.bind fun value =>
    Http.Header.visibleText? ⟨typeName, value⟩

structure Carries (head : Http.Head) (page : List Char) (r : Http.Response) : Prop where
  body : r.body.toByteArray = (String.ofList page).toUTF8
  length : r.head.headers.valuesOf "content-length" =
    [Text.Utf8.encode (toString r.body.length).toList]
  type : r.head.headers.valuesOf "content-type" =
    [Text.Utf8.encode (ContentType.withCharset (firstType head)).1]
  status : r.head.status = head.status
  others : ∀ name, name ≠ "content-type" → name ≠ "content-length" →
    r.head.headers.valuesOf name = head.headers.valuesOf name

theorem declaredType_ok (head : Http.Head) : declaredType (.ok head) = firstType head := by
  rw [firstType, ← Http.Headers.first?_map_value, declaredType]
  cases head.headers.first? typeName <;> rfl

section

variable (head : Http.Head) (type : List UInt8) (length : Nat)

theorem valuesOf_framed_length :
    (framed head ⟨typeName, type⟩ length).headers.valuesOf "content-length" =
      [octets (Decimal.digitsOf length)] :=
  Http.Headers.valuesOf_set_self _ ⟨lengthName, octets (Decimal.digitsOf length)⟩

theorem valuesOf_framed_type :
    (framed head ⟨typeName, type⟩ length).headers.valuesOf "content-type" = [type] :=
  have hne : "content-type" ≠ lengthName := by decide
  (Http.Headers.valuesOf_set_of_ne _ ⟨lengthName, _⟩ hne).trans
    (Http.Headers.valuesOf_set_self _ ⟨typeName, type⟩)

theorem valuesOf_framed_of_ne {name : String} (htype : name ≠ "content-type")
    (hlength : name ≠ "content-length") :
    (framed head ⟨typeName, type⟩ length).headers.valuesOf name = head.headers.valuesOf name :=
  (Http.Headers.valuesOf_set_of_ne _ ⟨lengthName, _⟩ hlength).trans
    (Http.Headers.valuesOf_set_of_ne _ ⟨typeName, _⟩ htype)

end

theorem emit_ok (head : Http.Head) (page : List Char) :
    ∃ r, (emit (.ok head) page).1 = .ok r ∧ Carries head page r := by
  have hfield := typeField_withCharset (.ok head)
  rw [declaredType_ok] at hfield
  refine ⟨⟨framed head ⟨typeName, octets (ContentType.withCharset (firstType head)).1⟩
    (octets page).length, octets page⟩, ?_, ?_⟩
  · simp only [emit, declaredType_ok, hfield]
  · exact {
      body := rfl
      length := by
        rw [valuesOf_framed_length]
        exact congrArg (fun digits => [octets digits]) String.toList_ofList.symm
      type := valuesOf_framed_type head _ _
      status := rfl
      others := fun name htype hlength => valuesOf_framed_of_ne head _ _ htype hlength }

theorem emit_error (fault : Http.Fault) (page : List Char) :
    (emit (.error fault) page).1 = .error (.response fault) := by
  have hfield := typeField_withCharset (.error fault)
  simp only [emit, hfield]

end Emission

/-- A page makes a response exactly if the head has no fault, which is then the failure. The
response carries the page and leaves everything else of the head as it was; rendering puts the
text of the page in like this. A media type never fails to make a header field. -/
theorem Service.render_carries (s : Service) (files : Files) (request : Http.Request)
    (draft : Http.Draft) (view : String) (options : Options) (page : List Char) :
    (s.render files request draft view options).result =
        ((s.renderText files request view options).result >>= fun page =>
          (Emission.emit draft page).1) ∧
      (match draft with
        | .error fault => (Emission.emit draft page).1 = .error (.response fault)
        | .ok head => ∃ r, (Emission.emit draft page).1 = .ok r ∧ Emission.Carries head page r) ∧
      ((∃ fault, (Emission.emit draft page).1 = .error (.response fault)) ↔
        ∃ fault, draft = .error fault) ∧
      Emission.typeField (ContentType.withCharset (Emission.declaredType draft)).1 =
        .ok ⟨"content-type",
          Text.Utf8.encode (ContentType.withCharset (Emission.declaredType draft)).1⟩ := by
  have hrender : (s.render files request draft view options).result =
      ((s.renderText files request view options).result >>= fun page =>
        (Emission.emit draft page).1) := by
    unfold Service.render
    dsimp only
    split <;> rename_i heq <;> rw [heq] <;> rfl
  refine ⟨hrender, ?_, ?_, Emission.typeField_withCharset draft⟩
  · cases draft with
    | error fault => exact Emission.emit_error fault page
    | ok head => exact Emission.emit_ok head page
  · constructor
    · rintro ⟨fault, hfault⟩
      cases draft with
      | error fault' => exact ⟨fault', rfl⟩
      | ok head =>
        obtain ⟨r, hr, -⟩ := Emission.emit_ok head page
        rw [hr] at hfault
        cases hfault
    · rintro ⟨fault, rfl⟩
      exact ⟨fault, Emission.emit_error fault page⟩

end ViewRendering
