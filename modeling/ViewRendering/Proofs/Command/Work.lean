import ViewRendering.Command
import ViewRendering.Proofs.Service.Emission
import ViewRendering.Proofs.Service.Resolution

/-!
The work of a command. Everything that can be refused comes before the first octet is printed, so
that what is refused has printed nothing; the rest of the work prints a response as a whole.
-/
namespace ViewRendering

/-- Rendering puts the text of the page into the head of a response. -/
theorem Service.render_result_eq (s : Service) (files : Files) (request : Http.Request)
    (draft : Http.Draft) (view : String) (options : Options) :
    (s.render files request draft view options).result =
      (s.renderText files request view options).result.bind fun page =>
        (Emission.emit draft page).1 := by
  unfold render
  dsimp only
  split <;> rename_i h <;> rw [h] <;> rfl

namespace Emission

def carrier (head : Http.Head) (page : List Char) : Http.Response :=
  ⟨framed head ⟨typeName, octets (ContentType.withCharset (firstType head)).1⟩
    (octets page).length, octets page⟩

theorem emit_eq_carrier (head : Http.Head) (page : List Char) :
    (emit (.ok head) page).1 = .ok (carrier head page) := by
  have hfield := typeField_withCharset (.ok head)
  rw [declaredType_ok] at hfield
  simp only [emit, declaredType_ok, hfield, carrier]

end Emission

namespace Command

namespace Work

variable {α β : Type}

def Silent (w : Work α) : Prop := ∀ p, (w.runFrom p).2.output = p.output

def Sure (w : Work α) : Prop := ∀ p, ∃ a, (w.runFrom p).1 = .ok a

/-- Work that has printed nothing if it is refused. -/
def AllOrNothing (w : Work α) : Prop :=
  ∀ p refusal, (w.runFrom p).1 = .error refusal → (w.runFrom p).2.output = p.output

theorem runFrom_bind (w : Work α) (f : α → Work β) (p : Progress) :
    runFrom (w >>= f) p =
      match w.runFrom p with
      | (.ok a, q) => (f a).runFrom q
      | (.error refusal, q) => (.error refusal, q) := by
  change (ExceptT.bindCont f (w.runFrom p).1) (w.runFrom p).2 = _
  cases w.runFrom p with
  | mk result q => cases result <;> rfl

theorem runFrom_print (octets : List UInt8) (p : Progress) :
    (print octets).runFrom p = (.ok (), { p with output := p.output ++ octets }) := rfl

theorem runFrom_report (journal : Journal) (p : Progress) :
    (report journal).runFrom p = (.ok (), { p with journal := p.journal ++ journal }) := rfl

theorem runFrom_await (activity : Except Failure α × Journal) (p : Progress) :
    (await activity).runFrom p =
      (activity.1.mapError .failure, { p with journal := p.journal ++ activity.2 }) := by
  obtain ⟨result, journal⟩ := activity
  cases result <;> rfl

theorem runFrom_lift (x : Except Refusal α) (p : Progress) :
    runFrom (liftM x) p = (x, p) := by
  cases x <;> rfl

theorem silent_await (activity : Except Failure α × Journal) : Silent (await activity) := by
  intro p
  rw [runFrom_await]

theorem silent_report (journal : Journal) : Silent (report journal) := by
  intro p
  rw [runFrom_report]

theorem silent_lift (x : Except Refusal α) : Silent (liftM x) := by
  intro p
  rw [runFrom_lift]

theorem sure_print (octets : List UInt8) : Sure (print octets) := fun _ => ⟨(), rfl⟩

theorem sure_pure (a : α) : Sure (pure a) := fun _ => ⟨a, rfl⟩

theorem Sure.bind {w : Work α} {f : α → Work β} (hw : Sure w) (hf : ∀ a, Sure (f a)) :
    Sure (w >>= f) := by
  intro p
  obtain ⟨a, ha⟩ := hw p
  rw [runFrom_bind]
  cases hrun : w.runFrom p with
  | mk result q =>
    rw [hrun] at ha
    cases ha
    exact hf a q

theorem Sure.allOrNothing {w : Work α} (hw : Sure w) : AllOrNothing w := by
  intro p refusal hrefused
  obtain ⟨a, ha⟩ := hw p
  rw [ha] at hrefused
  cases hrefused

theorem runFrom_bind_of_ok {w : Work α} {f : α → Work β} {p q : Progress} {a : α}
    (h : w.runFrom p = (.ok a, q)) : runFrom (w >>= f) p = (f a).runFrom q := by
  rw [runFrom_bind, h]

theorem exists_of_runFrom_bind {w : Work α} {f : α → Work β} {p : Progress} {b : β}
    (h : (runFrom (w >>= f) p).1 = .ok b) :
    ∃ a, (w.runFrom p).1 = .ok a ∧ ((f a).runFrom (w.runFrom p).2).1 = .ok b := by
  rw [runFrom_bind] at h
  cases hrun : w.runFrom p with
  | mk result q =>
    rw [hrun] at h
    cases result with
    | error _ => cases h
    | ok a => exact ⟨a, rfl, h⟩

theorem exists_of_await {activity : Except Failure α × Journal} {p : Progress} {a : α}
    (h : ((await activity).runFrom p).1 = .ok a) : activity.1 = .ok a := by
  rw [runFrom_await] at h
  cases hactivity : activity.1 with
  | error f =>
    rw [hactivity] at h
    cases h
  | ok b =>
    rw [hactivity] at h
    cases h
    rfl

/-- Silent work in front changes nothing about what is printed when the rest is refused. -/
theorem Silent.bind_allOrNothing {w : Work α} {f : α → Work β} (hw : Silent w)
    (hf : ∀ a, AllOrNothing (f a)) : AllOrNothing (w >>= f) := by
  intro p refusal hrefused
  have hsilent := hw p
  rw [runFrom_bind] at hrefused ⊢
  cases hrun : w.runFrom p with
  | mk result q =>
    rw [hrun] at hsilent hrefused
    cases result with
    | error _ => exact hsilent
    | ok a => exact (hf a q refusal hrefused).trans hsilent

end Work

open Work

theorem sure_forM_print {α : Type} (text : α → List UInt8) (items : List α) :
    Sure (items.forM fun a => print (text a)) := by
  induction items with
  | nil => exact sure_pure ()
  | cons a items ih => exact (sure_print (text a)).bind fun _ => ih

theorem sure_printHead (head : Http.Head) : Sure (printHead head) :=
  (sure_print _).bind fun _ => (sure_forM_print _ _).bind fun _ => sure_print _

/-- What is printed of a response is never refused. -/
theorem sure_printing (c : Command) (r : Http.Response) :
    Sure (do
      if c.showHead then printHead r.head
      print r.body) := by
  cases hshow : c.showHead with
  | false => exact (sure_pure PUnit.unit).bind fun _ => sure_print r.body
  | true => exact (sure_printHead r.head).bind fun _ => sure_print r.body

/-- All that can be refused is silent and comes first. -/
theorem allOrNothing_work (c : Command) (files : Files) (engine : Template.Engine) :
    AllOrNothing (c.work files engine) := by
  unfold work
  refine (silent_await _).bind_allOrNothing fun s => ?_
  refine (silent_lift _).bind_allOrNothing fun o => ?_
  refine (silent_report _).bind_allOrNothing fun _ => ?_
  refine (silent_await _).bind_allOrNothing fun r => ?_
  exact (sure_printing c r).allOrNothing

def headText (head : Http.Head) : List Char :=
  statusLine ++ (head.headers.flatMap headerLine ++ ['\n'])

def printed (c : Command) (r : Http.Response) : List UInt8 :=
  if c.showHead then Text.Utf8.encode (headText r.head) ++ r.body else r.body

theorem runFrom_forM_print {α : Type} (text : α → List Char) (items : List α) (p : Progress) :
    runFrom (items.forM fun a => print (Text.Utf8.encode (text a))) p =
      (.ok PUnit.unit, { p with output := p.output ++ Text.Utf8.encode (items.flatMap text) }) := by
  induction items generalizing p with
  | nil =>
    rw [List.flatMap_nil, Text.Utf8.encode, List.flatMap_nil, List.append_nil]
    rfl
  | cons a items ih =>
    change runFrom (print (Text.Utf8.encode (text a)) >>= fun _ =>
      items.forM fun a => print (Text.Utf8.encode (text a))) p = _
    rw [runFrom_bind_of_ok (runFrom_print _ p), ih, List.flatMap_cons, Text.Utf8.encode_append,
      List.append_assoc]

theorem runFrom_printHead (head : Http.Head) (p : Progress) :
    (printHead head).runFrom p =
      (.ok (), { p with output := p.output ++ Text.Utf8.encode (headText head) }) := by
  have htext : Text.Utf8.encode (headText head) = Text.Utf8.encode statusLine ++
      (Text.Utf8.encode (head.headers.flatMap headerLine) ++ Text.Utf8.encode ['\n']) := by
    rw [headText, Text.Utf8.encode_append, Text.Utf8.encode_append]
  rw [printHead, runFrom_bind_of_ok (runFrom_print _ p),
    runFrom_bind_of_ok (runFrom_forM_print headerLine head.headers _), runFrom_print, htext,
    List.append_assoc, List.append_assoc]

theorem runFrom_printing (c : Command) (r : Http.Response) (p : Progress) :
    runFrom (do
      if c.showHead then printHead r.head
      print r.body) p = (.ok (), { p with output := p.output ++ c.printed r }) := by
  unfold printed
  cases c.showHead with
  | false => exact runFrom_print r.body p
  | true =>
    change runFrom (printHead r.head >>= fun _ => print r.body) p = _
    rw [runFrom_bind_of_ok (runFrom_printHead r.head p), runFrom_print]
    simp only [List.append_assoc, if_true]

variable {c : Command} {files : Files} {engine : Template.Engine} {s : Settings} {o : Options}
  {r : Http.Response}

/-- With settings, options and a response the work is done, and the response is printed. -/
theorem runFrom_work_of_respond (hsettings : (c.settings files).1 = .ok s)
    (hoptions : c.options = .ok o) (hresponse : (c.respond files engine s o).1 = .ok r)
    (p : Progress) :
    (c.work files engine).runFrom p = (.ok (), ⟨p.output ++ c.printed r, p.journal ++
      (c.settings files).2 ++ [c.renderingEvent s] ++ (c.respond files engine s o).2⟩) := by
  unfold work
  rw [runFrom_bind_of_ok (a := s) (by rw [runFrom_await, hsettings]; rfl),
    runFrom_bind_of_ok (a := o) (by rw [runFrom_lift, hoptions]),
    runFrom_bind_of_ok (runFrom_report _ _),
    runFrom_bind_of_ok (a := r) (by rw [runFrom_await, hresponse]; rfl)]
  exact runFrom_printing c r _

/-- Work that is done had settings, options and a response. -/
theorem exists_of_work {p : Progress} (h : ((c.work files engine).runFrom p).1 = .ok ()) :
    ∃ s o r, (c.settings files).1 = .ok s ∧ c.options = .ok o ∧
      (c.respond files engine s o).1 = .ok r := by
  unfold work at h
  obtain ⟨s, hsettings, h⟩ := exists_of_runFrom_bind h
  obtain ⟨o, hoptions, h⟩ := exists_of_runFrom_bind h
  obtain ⟨-, -, h⟩ := exists_of_runFrom_bind h
  obtain ⟨r, hresponse, -⟩ := exists_of_runFrom_bind h
  rw [runFrom_lift] at hoptions
  exact ⟨s, o, r, exists_of_await hsettings, hoptions, exists_of_await hresponse⟩

/-- The page that the service of a command renders, for its settings and options. -/
def Renders (c : Command) (files : Files) (engine : Template.Engine) (page : List Char) : Prop :=
  ∃ s o service, (c.settings files).1 = .ok s ∧ c.options = .ok o ∧
    (Service.build s [] [] engine).1 = .ok service ∧
    (service.renderText files request c.view o).result = .ok page

theorem Renders.unique {page page' : List Char} (h : c.Renders files engine page)
    (h' : c.Renders files engine page') : page = page' := by
  obtain ⟨s, o, service, hsettings, hoptions, hservice, hpage⟩ := h
  obtain ⟨s', o', service', hsettings', hoptions', hservice', hpage'⟩ := h'
  cases hsettings.symm.trans hsettings'
  cases hoptions.symm.trans hoptions'
  cases hservice.symm.trans hservice'
  exact Except.ok.inj (hpage.symm.trans hpage')

/-- A response is the page that the service renders, put into the head that the command asks
for. -/
theorem respond_eq_ok_iff :
    (c.respond files engine s o).1 = .ok r ↔
      ∃ service page head, (Service.build s [] [] engine).1 = .ok service ∧
        (service.renderText files request c.view o).result = .ok page ∧
        c.draft = .ok head ∧ r = Emission.carrier head page := by
  unfold respond
  cases hbuild : Service.build s [] [] engine with
  | mk built journal =>
    cases built with
    | error f => simp
    | ok service =>
      dsimp only
      rw [Service.render_result_eq]
      constructor
      · intro h
        obtain ⟨page, hpage, hemit⟩ := Service.exists_of_bind_eq_ok h
        cases hdraft : c.draft with
        | error fault =>
          rw [hdraft, Emission.emit_error] at hemit
          cases hemit
        | ok head =>
          rw [hdraft, Emission.emit_eq_carrier] at hemit
          exact ⟨service, page, head, rfl, hpage, rfl, (Except.ok.inj hemit).symm⟩
      · rintro ⟨service', page, head, hservice, hpage, hdraft, rfl⟩
        cases hservice
        rw [hpage, hdraft]
        exact Emission.emit_eq_carrier head page

end Command

end ViewRendering
