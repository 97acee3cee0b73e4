import BuildMend.Proofs.Assistant.Lifecycle
import BuildMend.Proofs.Json.Stops
import BuildMend.Proofs.Migration.LookupFailures
import BuildMend.Proofs.SpecSearch.Answer

/-!
What a search for a specification comes to, when its assistant fails only in the ways that the program reports.

* `SpecLocation.IsBroken`, `SpecLocation.Overwhelms`: the object in an answer is not in the format, or the reader
  comes to a number that is too long, or too deep, in it.
* `SpecSearch.Asked`: one client is attached, and was asked once at most.
* `SpecSearch.session_course`: the session of a search ends in what the assistant says, and disconnects its client.
* `SpecSearch.locate_finds_iff`: a search gives a location, or none, exactly if the answer does not overwhelm the
  reader; failures of the assistant and broken objects give none; and its one client is disconnected once.

A number with more digits than a whole number may have is a fault of another kind than a broken object, and it is
not passed over: `SpecSearch.locate_onesWorld`.
-/

namespace BuildMend

open Act Number Text

/-! ### Answers that are not read -/

namespace SpecLocation

/-- The object in an answer is not in the format. -/
def IsBroken (answer : String) : Prop :=
  ∃ o kind offset line column, objectForm.first? answer.toList = some o ∧
    Json.readChars o.value = .error (.syntaxFault kind offset line column)

/-- In the object in an answer the reader comes to a whole number with too many digits, or to a container within
too many others. -/
def Overwhelms (answer : String) : Prop :=
  ∃ o fault, objectForm.first? answer.toList = some o ∧ Json.readChars o.value = .error fault ∧
    ((∃ count, fault = .tooManyDigits count) ∨ ∃ container, fault = .tooDeep container)

variable {answer : String}

/-- A broken object gives no location. -/
lemma ofAnswer_of_isBroken (h : IsBroken answer) : ofAnswer answer = .ok .none := by
  obtain ⟨o, kind, offset, line, column, hfirst, hread⟩ := h
  simp only [ofAnswer, read, hfirst, hread]

/-- Everything else that does not overwhelm the reader gives one, or none. -/
lemma exists_ofAnswer_iff : (∃ found, ofAnswer answer = .ok found) ↔ ¬Overwhelms answer := by
  constructor
  · rintro ⟨found, hfound⟩ ⟨o, fault, hfirst, hread, hfault⟩
    have herror := ofAnswer_eq_error_iff.mpr ⟨o, fault, hfirst, hread, hfault, rfl⟩
    rw [hfound] at herror
    cases herror
  · intro h
    cases hanswer : ofAnswer answer with
    | ok found => exact ⟨found, rfl⟩
    | error f =>
      obtain ⟨o, fault, hfirst, hread, hfault, -⟩ := ofAnswer_eq_error_iff.mp hanswer
      exact absurd ⟨o, fault, hfirst, hread, hfault⟩ h

/-- An answer overwhelms the reader only with many digits in a row, or with many opening brackets. -/
lemma holds_of_overwhelms (h : Overwhelms answer) :
    Json.HasLongNumber answer.toList ∨
      Json.depthLimit < answer.toList.countP Json.isOpening := by
  obtain ⟨o, fault, hfirst, hread, hfault⟩ := h
  obtain ⟨a, b, htext, -, hstands⟩ := Form.standsAt_of_first? hfirst
  obtain ⟨inner, after, rfl, -, -, hvalue, -⟩ := objectForm_eq_some_iff.mp hstands.1
  have hsplit : answer.toList = a ++ (o.value ++ after) := by rw [htext, hvalue]; simp
  have hwarrants := Json.warrants_of_readChars hread
  rw [hsplit]
  rcases hfault with ⟨count, hcount⟩ | ⟨container, hcontainer⟩
  · have hlong := (hwarrants.1 count hcount).append after
    exact .inl (hlong.of_suffix (List.suffix_append _ _))
  · have hdeep := hwarrants.2 container hcontainer
    rw [List.countP_append, List.countP_append]
    exact .inr (by omega)

/-- An object with a number of too many ones stops the search. -/
lemma ofAnswer_onesObject {n : Nat} (h : digitLimit < n) :
    ofAnswer (String.ofList (Json.onesObject n)) = .error (.badJson (.tooManyDigits n)) := by
  have hfirst : objectForm.first? (String.ofList (Json.onesObject n)).toList =
      some ⟨0, (Json.onesObject n).length, Json.onesObject n⟩ := by
    have hinner : IsBraceless (['"', 'p', 'a', 't', 'h', '"', ':'] ++ List.replicate n '1') := by
      simp [IsBraceless, IsBrace]
    have hobject : objectForm.first? ([] ++
        ('\x7b' :: (['"', 'p', 'a', 't', 'h', '"', ':'] ++ List.replicate n '1') ++ ['\x7d']) ++ []) =
        _ := first?_objectForm (by simp) (by simp) hinner
    simpa [Json.onesObject] using hobject
  simp only [ofAnswer, read, hfirst, Json.readChars_onesObject h]

end SpecLocation

/-! ### The session of a search -/

namespace SpecSearch

open Session

variable {s : SpecSearch} {owner repo request : String} {w : World}

/-- At a desk one client is attached, and was asked once at most. -/
structure Asked (w : World) (options : ClientOptions) (request : String) (d : Desk) : Prop where
  state : d.session.state ≠ .disposed
  client : d.session.client.isSome = true
  did : ∃ es, (es = [] ∨ es = [.query request]) ∧ w.Did ([.client options, .connect] ++ es) d.world

lemma asked_course :
    (do Session.begin; Session.send request : SessionAction String).Ends
      ⟨w, s.session owner repo⟩
      (fun _ => Asked w (s.session owner repo).options request)
      fun _ => Asked w (s.session owner repo).options request := by
  rw [ends_bind]
  refine begin_ends (fun h => absurd rfl h) (fun v _ hv _ => ?_) fun m v _ hv => ?_
  · refine send_ends (fun h => absurd rfl h) (fun f _ => ?_) (fun u _ _ hu _ => ?_) fun f u _ _ hu => ?_
    · exact ⟨by simp, rfl, [], .inl rfl, hv⟩
    · exact ⟨by simp [afterTurn], rfl, _, .inr rfl, hv.trans hu⟩
    · exact ⟨by simp [afterTurn], rfl, _, .inr rfl, hv.trans hu⟩
  · exact ⟨by simp [attached, session], rfl, [], .inl rfl, hv⟩

/-- A fault is logged, and nothing else is done about it. -/
lemma ask_course :
    (ask request).Ends ⟨w, s.session owner repo⟩
      (fun _ => Asked w (s.session owner repo).options request)
      fun _ => Asked w (s.session owner repo).options request := by
  rw [ask, ends_bind, ends_attempt]
  refine asked_course.mono (fun _ _ h => h) fun f d hd => ?_
  cases f with
  | fault f =>
    rw [ends_bind]
    refine inWorld_ends.mpr ((Action.Tells.log _ _ _).ends fun v hv _ => ?_)
    obtain ⟨es, hes, hdid⟩ := hd.did
    exact ⟨hd.state, hd.client, es, hes, by simpa using hdid.trans hv⟩
  | _ => exact hd

/-- The deeds of a search: one client is created, and it is disconnected once, at last. -/
def Disconnects (w v : World) : Prop :=
  ∃ es, w.Did es v ∧ es.countP Event.isClient = 1 ∧ es.countP Event.isDisconnect = 1 ∧
    es.getLast? = some .disconnect

lemma Asked.dispose_course {options : ClientOptions} {d : Desk} (h : Asked w options request d) :
    dispose.Ends d (fun _ e => Disconnects w e.world) fun _ e => Disconnects w e.world := by
  obtain ⟨es, hes, hdid⟩ := h.did
  have hleft {v : World} (hv : d.world.Did [.disconnect] v) : Disconnects w v := by
    refine ⟨_, hdid.trans hv, ?_⟩
    rcases hes with rfl | rfl <;> exact ⟨rfl, rfl, rfl⟩
  refine dispose_ends (fun hs => absurd hs h.state) (fun v _ hnone _ _ => ?_)
    (fun c v _ _ _ hv _ => hleft hv) fun f c v _ _ _ _ hv => hleft hv
  have hclient := h.client
  rw [hnone] at hclient
  cases hclient

/-- The session of a search ends in what the assistant says, and disconnects its client. -/
theorem session_course (h : (w.client 0).FailsAsReported s.profile.limit)
    (owner repo request : String) :
    ((s.session owner repo).within (ask request)).Ends w
      (fun a v => (w.client 0).said s.profile.limit = .ok a ∧ Disconnects w v) fun _ _ => False := by
  rw [within_ends, ends_closing]
  refine ((ask_ends request).and ask_course).mono ?_ ?_
  · rintro a d ⟨⟨hsaid, hattends⟩, hasked⟩
    refine (hattends.dispose_ends.and hasked.dispose_course).mono ?_ ?_
    · rintro _ e ⟨-, hleft⟩
      exact ⟨hsaid, hleft⟩
    · rintro f e ⟨hfarewell, -⟩
      rw [h.farewell_eq] at hfarewell
      cases hfarewell
  · rintro f d ⟨⟨hsaid, -⟩, -⟩
    rw [h.said_eq] at hsaid
    cases hsaid

/-- Reading an answer does nothing but log it. -/
lemma readAnswer_course (directory answer : String) (w : World) :
    ∃ v, readAnswer directory answer w = (SpecLocation.ofAnswer answer, v) ∧ w.Did [] v := by
  obtain ⟨es, hes, hall⟩ := readAnswer_apply directory answer w
  have hnil : es.reverse.filter Event.isDeed = [] := by
    simpa [List.filter_eq_nil_iff] using fun e he => (hall e he).2
  exact ⟨_, hes, by simp [World.told], by simp [World.told], by rw [World.deeds_told, hnil]⟩

lemma Disconnects.trans {v u : World} (h : Disconnects w v) (h' : v.Did [] u) : Disconnects w u := by
  obtain ⟨es, hdid, hrest⟩ := h
  exact ⟨es, by simpa using hdid.trans h', hrest⟩

/-- A search ends in the location that the answer holds, or in none if there is no answer. -/
lemma locate_course (h : (w.client 0).FailsAsReported s.profile.limit)
    (owner repo directory branch : String) :
    ∃ v, s.locate owner repo directory branch w =
        (if ((w.client 0).failure? s.profile.limit).isNone then
            SpecLocation.ofAnswer (w.client 0).firstTurn.answer
          else .ok .none, v) ∧
      Disconnects w v := by
  obtain ⟨a, v, hsession, hsaid, hleft⟩ := Ends.exists_ok <|
    session_course h owner repo (Prompt.searchRequest owner repo directory branch)
  rw [h.said_eq] at hsaid
  rw [locate, bind_of_ok hsession, ← Except.ok.inj hsaid]
  split
  · obtain ⟨u, hread, hdid⟩ := readAnswer_course directory (w.client 0).firstTurn.answer v
    exact ⟨u, hread, hleft.trans hdid⟩
  · exact ⟨v, rfl, hleft⟩

/-- A search whose assistant fails only as reported gives a location, or none, exactly if there is no answer or
the answer does not overwhelm the reader, which needs many digits in a row or many opening brackets.  There is
none if the assistant fails or its object is not in the format.  Either way one client is created, and
disconnected once. -/
theorem locate_finds_iff (h : (w.client 0).FailsAsReported s.profile.limit)
    (owner repo directory branch : String) :
    let failure := (w.client 0).failure? s.profile.limit
    let answer := (w.client 0).firstTurn.answer
    ∃ r v es, s.locate owner repo directory branch w = (r, v) ∧
      ((∃ found, r = .ok found) ↔ (failure = none → ¬SpecLocation.Overwhelms answer)) ∧
      (SpecLocation.Overwhelms answer → Json.HasLongNumber answer.toList ∨
        Json.depthLimit < answer.toList.countP Json.isOpening) ∧
      (failure ≠ none ∨ SpecLocation.IsBroken answer → r = .ok .none) ∧
      w.Did es v ∧ es.countP Event.isClient = 1 ∧ es.countP Event.isDisconnect = 1 := by
  intro failure answer
  obtain ⟨v, hlocate, es, hdid, hcreated, hleft, -⟩ := locate_course h owner repo directory branch
  refine ⟨_, v, es, hlocate, ?_, SpecLocation.holds_of_overwhelms, ?_, hdid, hcreated, hleft⟩
  · change _ ↔ ((w.client 0).failure? s.profile.limit = none → _)
    cases hfailure : (w.client 0).failure? s.profile.limit with
    | none => simpa using SpecLocation.exists_ofAnswer_iff
    | some f => simp
  · rintro (hfailure | hbroken)
    · rw [if_neg (by simpa [failure] using hfailure)]
    · rw [SpecLocation.ofAnswer_of_isBroken hbroken, ite_self]

/-- A search with nothing special. -/
def plainSearch : SpecSearch := ⟨"/lib", ⟨"model", "model", none, "acceptEdits", none⟩⟩

/-- A world with an assistant that takes one turn. -/
def turnWorld (ms : List Message) : World where
  tree := { files := [], directories := [] }
  clients := [{ turns := [{ messages := ms }] }]

/-- An assistant reports an error: there is no location, and its client is disconnected. -/
theorem locate_reported_error :
    ∃ v es, plainSearch.locate "Azure" "specs" "spec" "main"
        (turnWorld [.result true "error" none none]) = (.ok .none, v) ∧
      (turnWorld [.result true "error" none none]).Did es v ∧ es.countP Event.isClient = 1 ∧
        es.countP Event.isDisconnect = 1 := by
  have hfailure : ((turnWorld [.result true "error" none none]).client 0).failure?
      plainSearch.profile.limit = some (.fault (.assistantReported "error")) := rfl
  obtain ⟨r, v, es, hlocate, -, -, hnone, hdid, hcreated, hleft⟩ :=
    locate_finds_iff (s := plainSearch) (w := turnWorld [.result true "error" none none])
      { connects := rfl
        leaves := rfl
        limits := rfl
        turn := fun f hf => ⟨_, Option.some.inj (hf.symm.trans hfailure)⟩ }
      "Azure" "specs" "spec" "main"
  obtain rfl := hnone (.inl (by rw [hfailure]; exact Option.some_ne_none _))
  exact ⟨v, es, hlocate, hdid, hcreated, hleft⟩

/-- A world with an assistant that answers with an object of ones. -/
def onesWorld (n : Nat) : World := turnWorld [.assistant [.text (String.ofList (Json.onesObject n))]]

lemma answer_onesWorld (n : Nat) :
    ((onesWorld n).client 0).firstTurn.answer = String.ofList (Json.onesObject n) := by
  have htrimmed : IsTrimmed (Json.onesObject n) := by
    have hstart : isBlank '\x7b' = false := by decide
    have hend : isBlank '\x7d' = false := by decide
    refine ⟨by simp [Json.onesObject, hstart], ?_⟩
    rw [Json.onesObject, ← List.append_assoc, List.getLast?_concat]
    simp [hend]
  have hanswer : ((onesWorld n).client 0).firstTurn.answer =
      trimString ("\n".intercalate [String.ofList (Json.onesObject n)]) := rfl
  rw [hanswer, String.intercalate_singleton, trimString, String.toList_ofList,
    trim_eq_self_iff.mpr htrimmed]

/-- Nothing fails but the reader, and the search fails with it. -/
lemma locate_onesWorld {n : Nat} (h : digitLimit < n) (owner repo directory branch : String) :
    (plainSearch.locate owner repo directory branch (onesWorld n)).1 =
      .error (.badJson (.tooManyDigits n)) := by
  have hanswers : ((onesWorld n).client 0).failure? plainSearch.profile.limit = none := rfl
  have hreported : ((onesWorld n).client 0).FailsAsReported plainSearch.profile.limit :=
    { connects := rfl
      leaves := rfl
      limits := rfl
      turn := fun f hf => (by cases hanswers.symm.trans hf) }
  obtain ⟨v, hlocate, -⟩ := locate_course hreported owner repo directory branch
  rw [hlocate, hanswers, answer_onesWorld]
  exact SpecLocation.ofAnswer_onesObject h

/-- With 4301 ones there is no pair. -/
theorem locate_too_many_ones :
    (plainSearch.locate "Azure" "specs" "spec" "main" (onesWorld 4301)).1 =
      .error (.badJson (.tooManyDigits 4301)) :=
  locate_onesWorld (by decide) _ _ _ _

end SpecSearch

end BuildMend
