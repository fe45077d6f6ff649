/-
# How an outcome is printed

Three options only say how the outcome of a run is printed: as a document, with the log, with the
trace. Wherever they stand on a command line, or are left out, it asks for the same run: what they
switch on is set beside everything else.

An argument that asks for a display and nothing else is an option in front of the end of the
options. Behind it, the same text is the sample.

* `take_shown`: words are taken beside the display;
* `take_plainWords`: what the words set without those that only ask for a display;
* `parse_plainArguments`: a command line makes the request of its plain arguments, with a display;
* `eq_shown_of_plainArguments`, `parse_display`: displays are exchanged, or added.
-/
import SigScan.Proofs.CommandLine.Arguments

namespace SigScan.CommandLine

/-! ## Displays -/

/-- What is to be printed of an outcome. -/
structure Display where
  json : Bool := false
  verbose : Bool := false
  debug : Bool := false
  deriving DecidableEq, Repr

/-- Two displays at once. -/
def Display.or (d e : Display) : Display :=
  ⟨d.json || e.json, d.verbose || e.verbose, d.debug || e.debug⟩

/-- The display that an option asks for. -/
def Opt.display? : Opt → Option Display
  | .json => some { json := true }
  | .verbose => some { verbose := true }
  | .debug => some { debug := true }
  | _ => none

/-- The display that a word asks for. -/
def Word.display? : Word → Option Display
  | .option o _ none => o.display?
  | _ => none

/-- The settings with a display. -/
def Settings.shown (s : Settings) (d : Display) : Settings :=
  { s with json := s.json || d.json, verbose := s.verbose || d.verbose, debug := s.debug || d.debug }

namespace Settings

variable (s : Settings) (d : Display)

/-- No display changes nothing. -/
theorem shown_none : s.shown {} = s := by
  simp [shown]

/-- One display after another. -/
theorem shown_shown (e : Display) : (s.shown d).shown e = s.shown (d.or e) := by
  simp [shown, Display.or, Bool.or_assoc]

/-- A value is set beside the display. -/
theorem set_shown (o : Opt) (value : String) :
    (s.shown d).set o value = (·.shown d) <$> s.set o value := by
  cases o with
  | arch =>
    simp only [set]
    split <;> rfl
  | base =>
    simp only [set]
    split <;> rfl
  | _ => rfl

/-- An attached value is set beside the display. -/
theorem setAttached_shown (o : Opt) (value : String) :
    (s.shown d).setAttached o value = (·.shown d) <$> s.setAttached o value := by
  unfold setAttached
  split
  · cases o <;> rfl
  · exact set_shown s d o value

/-- An option is switched on beside the display. -/
theorem switch_shown (o : Opt) : (s.shown d).switch o = (·.shown d) <$> s.switch o := by
  cases o <;> simp [switch, shown, Functor.map, Except.map]

/-- Several options are switched on beside the display. -/
theorem foldlM_switch_shown (os : List Opt) :
    os.foldlM switch (s.shown d) = (·.shown d) <$> os.foldlM switch s := by
  induction os generalizing s with
  | nil => rfl
  | cons o os ih =>
    rw [List.foldlM_cons, List.foldlM_cons, switch_shown, bind_map_left, map_bind]
    congr 1
    funext s
    exact ih s

end Settings

/-! ## Taking words -/

/-- A value that `--` does not follow is the sample, where there is none. -/
theorem take_value {s : Settings} {rest : List Word} (hs : s.sample = none)
    (h : ∀ more, rest ≠ .dashes :: more) (text : String) :
    take s (.value text :: rest) = take { s with sample := some text } rest :=
  take.eq_3 s text rest hs h

/-- A value is left over, where there is a sample. -/
theorem take_extraValue {s : Settings} {sample : String} (hs : s.sample = some sample)
    (text : String) (rest : List Word) :
    take s (.value text :: rest) = take (s.leave text) rest :=
  take.eq_4 s text rest sample hs

/-- The end of the options says nothing else, where no value follows and there is no sample. -/
theorem take_dashes {s : Settings} {rest : List Word} (hs : s.sample = none)
    (h : ∀ text more, rest ≠ .value text :: more) : take s (.dashes :: rest) = take s rest :=
  take.eq_7 s rest hs h

/-- The end of the options is left over, where there is a sample. -/
theorem take_extraDashes {s : Settings} {sample : String} (hs : s.sample = some sample)
    (rest : List Word) : take s (.dashes :: rest) = take (s.leave dashes) rest :=
  take.eq_8 s rest sample hs

/-- An option that lacks its value stops the reading. -/
theorem take_noValue {o : Opt} {rest : List Word} (ho : o.takesValue = true)
    (h : ∀ value more, rest ≠ .value value :: more) (s : Settings) (oneDash : Bool) :
    take s (.option o oneDash none :: rest) = .error (.refused (.noValue o)) := by
  rw [take.eq_def]
  cases rest with
  | nil => exact if_pos ho
  | cons w more =>
    cases w with
    | value text => exact absurd rfl (h text more)
    | _ => exact if_pos ho

/-- **Words are taken beside the display.** -/
theorem take_shown (s : Settings) (d : Display) (ws : List Word) :
    take (s.shown d) ws = (·.shown d) <$> take s ws := by
  -- as the words are taken: values, the end of the options, and options with a value or without
  induction s, ws using take.induct with
  | case1 s => rfl
  | case2 s text more hs ih =>
    have hshown : (s.shown d).sample = none := hs
    simp only [take, hs, hshown]
    exact ih
  | case3 s text more hmore hs ih =>
    have hshown : (s.shown d).sample = none := hs
    rw [take_value hs hmore, take_value hshown hmore]
    exact ih
  | case4 s text sample more hs ih =>
    have hshown : (s.shown d).sample = some sample := hs
    rw [take_extraValue hs, take_extraValue hshown]
    exact ih
  | case5 s text rest ih => exact ih
  | case6 s text more hs ih =>
    have hshown : (s.shown d).sample = none := hs
    simp only [take, hs, hshown]
    exact ih
  | case7 s more hmore hs ih =>
    have hshown : (s.shown d).sample = none := hs
    rw [take_dashes hs hmore, take_dashes hshown hmore]
    exact ih
  | case8 s sample more hs ih =>
    have hshown : (s.shown d).sample = some sample := hs
    rw [take_extraDashes hs, take_extraDashes hshown]
    exact ih
  | case9 s o oneDash ho value more ih =>
    simp only [take, ho, if_true, Settings.setAttached_shown, bind_map_left, map_bind, ih]
  | case10 s o oneDash ho value more ih =>
    simp only [take, ho, if_true, Settings.set_shown, bind_map_left, map_bind, ih]
  | case11 s o oneDash rest ho hrest =>
    rw [take_noValue ho hrest, take_noValue ho hrest]
    rfl
  | case12 s o oneDash attached rest ho ih =>
    have hswitch : o.takesValue = false := by simpa using ho
    rw [take_switches hswitch, take_switches hswitch, map_bind]
    congr 1
    funext os
    rw [Settings.foldlM_switch_shown, bind_map_left, map_bind]
    congr 1
    funext u
    exact ih u

/-- What a switched display sets. -/
theorem switch_of_display {o : Opt} {d : Display} (h : o.display? = some d) (s : Settings) :
    o.takesValue = false ∧ s.switch o = .ok (s.shown d) := by
  cases o with
  | json | verbose | debug =>
    cases h
    refine ⟨rfl, ?_⟩
    simp [Settings.switch, Settings.shown]
  | _ => cases h

/-- A word that only asks for a display switches it on. -/
theorem take_of_display {w : Word} {d : Display} (h : w.display? = some d) (s : Settings)
    (rest : List Word) : take s (w :: rest) = take (s.shown d) rest := by
  unfold Word.display? at h
  split at h
  · next o oneDash =>
    obtain ⟨ho, hswitch⟩ := switch_of_display h s
    rw [take_switch ho, hswitch]
    rfl
  · cases h

/-- What is set beside the arguments without a meaning keeps them. -/
theorem extras_of_set {s t : Settings} {o : Opt} {value : String} (h : s.set o value = .ok t) :
    t.extras = s.extras := by
  unfold Settings.set at h
  split at h
  · split at h <;> cases h
    rfl
  · split at h <;> cases h
    rfl
  · cases h
    rfl
  · cases h
    rfl

/-- An attached value keeps them. -/
theorem extras_of_setAttached {s t : Settings} {o : Opt} {value : String}
    (h : s.setAttached o value = .ok t) : t.extras = s.extras := by
  unfold Settings.setAttached at h
  split at h
  · cases h
    cases o <;> rfl
  · exact extras_of_set h

/-- Switches keep them. -/
theorem extras_of_switches {s t : Settings} {os : List Opt}
    (h : os.foldlM Settings.switch s = .ok t) : t.extras = s.extras := by
  induction os generalizing s with
  | nil =>
    cases h
    rfl
  | cons o os ih =>
    obtain ⟨u, hu, hrest⟩ := bind_eq_ok_iff.1 ((List.foldlM_cons ..).symm.trans h)
    rw [ih hrest]
    cases o <;> cases hu <;> rfl

/-- **What has no meaning is not forgotten.** -/
theorem extras_of_take {s t : Settings} {ws : List Word} (h : take s ws = .ok t) :
    s.extras <+: t.extras := by
  induction s, ws using take.induct with
  | case1 s =>
    cases h
    exact List.prefix_rfl
  | case2 s text more hs ih =>
    rw [take.eq_2 s text more hs] at h
    exact ih h
  | case3 s text more hmore hs ih => exact ih (take_value hs hmore text ▸ h)
  | case4 s text sample more hs ih =>
    exact (List.prefix_append _ _).trans (ih (take_extraValue hs text more ▸ h))
  | case5 s text rest ih => exact (List.prefix_append _ _).trans (ih h)
  | case6 s text more hs ih =>
    rw [take.eq_6 s text more hs] at h
    exact ih h
  | case7 s more hmore hs ih => exact ih (take_dashes hs hmore ▸ h)
  | case8 s sample more hs ih =>
    exact (List.prefix_append _ _).trans (ih (take_extraDashes hs more ▸ h))
  | case9 s o oneDash ho value more ih =>
    rw [take, if_pos ho] at h
    obtain ⟨u, hu, hrest⟩ := bind_eq_ok_iff.1 h
    exact extras_of_setAttached hu ▸ ih u hrest
  | case10 s o oneDash ho value more ih =>
    rw [take, if_pos ho] at h
    obtain ⟨u, hu, hrest⟩ := bind_eq_ok_iff.1 h
    exact extras_of_set hu ▸ ih u hrest
  | case11 s o oneDash rest ho hrest =>
    rw [take_noValue ho hrest] at h
    cases h
  | case12 s o oneDash attached rest ho ih =>
    have hswitch : o.takesValue = false := by simpa using ho
    rw [take_switches hswitch] at h
    obtain ⟨os, -, hos⟩ := bind_eq_ok_iff.1 h
    obtain ⟨u, hu, hrest⟩ := bind_eq_ok_iff.1 hos
    exact extras_of_switches hu ▸ ih u hrest

/-! ## Plain words -/

/-- The words in front of the end of the options without those that only ask for a display. -/
def plainWords : List Word → List Word
  | [] => []
  | .dashes :: rest => .dashes :: rest
  | w :: rest => if w.display?.isSome then plainWords rest else w :: plainWords rest

/-- Whatever is left over stays. -/
theorem extras_ne_of_take_leave {s t : Settings} {text : String} {ws : List Word}
    (h : take (s.leave text) ws = .ok t) : t.extras ≠ [] := by
  intro ht
  have hprefix := extras_of_take h
  rw [ht, List.prefix_nil] at hprefix
  exact List.append_ne_nil_of_right_ne_nil _ (List.cons_ne_nil _ _) hprefix

/-- A display in front of other words. -/
theorem plainWords_of_display {w : Word} {d : Display} (h : w.display? = some d)
    (rest : List Word) : plainWords (w :: rest) = plainWords rest := by
  cases w with
  | dashes => cases h
  | _ => exact if_pos (by rw [h]; rfl)

/-- Anything but a display in front of other words. -/
theorem plainWords_of_not_display {w : Word} (hw : w ≠ .dashes) (h : w.display? = none)
    (rest : List Word) : plainWords (w :: rest) = w :: plainWords rest := by
  cases w with
  | dashes => exact absurd rfl hw
  | _ => exact if_neg (by rw [h]; exact Bool.false_ne_true)

/-- Where there is a sample, the end of the options is left over, behind displays too. -/
theorem extras_ne_of_dashes {s t : Settings} {sample : String} {ws more : List Word}
    (hs : s.sample = some sample) (hws : plainWords ws = .dashes :: more)
    (h : take s ws = .ok t) : t.extras ≠ [] := by
  induction ws generalizing s with
  | nil => cases hws
  | cons w rest ih =>
    cases hd : w.display? with
    | some d =>
      rw [take_of_display hd] at h
      rw [plainWords_of_display hd] at hws
      exact ih (s := s.shown d) hs hws h
    | none =>
      by_cases hw : w = .dashes
      · subst hw
        rw [take_extraDashes hs] at h
        exact extras_ne_of_take_leave h
      · rw [plainWords_of_not_display hw hd] at hws
        exact absurd (List.cons.inj hws).1 hw

/-- **Without the words that only ask for a display**, the others set what they did. -/
theorem take_plainWords {s t : Settings} {ws : List Word} (h : take s ws = .ok t)
    (ht : t.extras = []) : ∃ u d, take s (plainWords ws) = .ok u ∧ t = u.shown d := by
  -- where nothing is left over in the end, nothing was left over on the way
  induction s, ws using take.induct with
  | case1 s => exact ⟨t, {}, h, t.shown_none.symm⟩
  | case2 s text more hs ih => exact ⟨t, {}, h, t.shown_none.symm⟩
  | case3 s text more hmore hs ih =>
    rw [take_value hs hmore] at h
    obtain ⟨u, d, hu, htu⟩ := ih h
    refine ⟨u, d, ?_, htu⟩
    rw [plainWords_of_not_display Word.noConfusion rfl]
    rwa [take_value hs]
    -- the end of the options does not move up to the value: it would have been left over
    intro rest hrest
    exact extras_ne_of_dashes rfl hrest h ht
  | case4 s text sample more hs ih =>
    rw [take_extraValue hs] at h
    exact absurd ht (extras_ne_of_take_leave h)
  | case5 s text rest ih =>
    rw [take] at h
    exact absurd ht (extras_ne_of_take_leave h)
  | case6 | case7 | case8 => exact ⟨t, {}, h, t.shown_none.symm⟩
  | case9 s o oneDash ho value more ih =>
    rw [take, if_pos ho] at h
    obtain ⟨v, hv, hrest⟩ := bind_eq_ok_iff.1 h
    obtain ⟨u, d, hu, htu⟩ := ih v hrest
    refine ⟨u, d, ?_, htu⟩
    rw [plainWords_of_not_display Word.noConfusion rfl, take, if_pos ho]
    exact bind_eq_ok_iff.2 ⟨v, hv, hu⟩
  | case10 s o oneDash ho value more ih =>
    rw [take, if_pos ho] at h
    obtain ⟨v, hv, hrest⟩ := bind_eq_ok_iff.1 h
    obtain ⟨u, d, hu, htu⟩ := ih v hrest
    refine ⟨u, d, ?_, htu⟩
    have hd : (Word.option o oneDash none).display? = none := by
      cases o <;> first | rfl | cases ho
    rw [plainWords_of_not_display Word.noConfusion hd,
      plainWords_of_not_display Word.noConfusion rfl, take, if_pos ho]
    exact bind_eq_ok_iff.2 ⟨v, hv, hu⟩
  | case11 s o oneDash rest ho hrest =>
    rw [take_noValue ho hrest] at h
    cases h
  | case12 s o oneDash attached rest ho ih =>
    cases hd : (Word.option o oneDash attached).display? with
    | some e =>
      rw [take_of_display hd] at h
      obtain ⟨u, d, hu, htu⟩ := ih (s.shown e) h
      rw [take_shown] at hu
      obtain ⟨v, hv, rfl⟩ := map_eq_ok_iff.1 hu
      refine ⟨v, e.or d, ?_, by rw [htu, Settings.shown_shown]⟩
      rw [plainWords_of_display hd, hv]
    | none =>
      have hswitch : o.takesValue = false := by simpa using ho
      rw [take_switches hswitch] at h
      obtain ⟨os, hos, hfold⟩ := bind_eq_ok_iff.1 h
      obtain ⟨v, hv, hrest⟩ := bind_eq_ok_iff.1 hfold
      obtain ⟨u, d, hu, htu⟩ := ih v hrest
      refine ⟨u, d, ?_, htu⟩
      rw [plainWords_of_not_display Word.noConfusion hd, take_switches hswitch]
      exact bind_eq_ok_iff.2 ⟨os, hos, bind_eq_ok_iff.2 ⟨v, hv, hu⟩⟩

/-! ## Plain arguments -/

/-- The display that an argument in front of the end of the options asks for. -/
def display? (argument : String) : Option Display :=
  (classify argument).toOption.bind Word.display?

/-- An argument asks for the display that it is sorted as. -/
theorem display?_eq_some_iff {argument : String} {d : Display} :
    display? argument = some d ↔ ∃ w, classify argument = .ok w ∧ w.display? = some d := by
  rw [display?]
  cases classify argument <;> simp [Except.toOption]

/-- The arguments without those that only ask for a display. -/
def plainArguments : List String → List String
  | [] => []
  | argument :: rest =>
    if argument = dashes then argument :: rest
    else if (display? argument).isSome then plainArguments rest
    else argument :: plainArguments rest

/-- An argument that is sorted does not end the options. -/
theorem ne_dashes_of_classify {argument : String} {w : Word} (h : classify argument = .ok w) :
    w ≠ .dashes := by
  rintro rfl
  have hnonOption : ∀ text, nonOption text ≠ .dashes := by
    intro text
    unfold nonOption
    split <;> exact Word.noConfusion
  unfold classify at h
  split at h
  · simp only at h
    split at h
    · cases h
    · split at h
      · cases h
      · split at h
        · unfold shortened at h
          simp only at h
          split at h
          · exact hnonOption _ (Except.ok.inj h)
          · cases h
          · cases h
        · split at h
          · cases h
          · exact hnonOption _ (Except.ok.inj h)
  · cases h

/-- Arguments that ask for nothing but a display are such words. -/
theorem words_plainArguments {arguments : List String} {ws : List Word}
    (h : words arguments = .ok ws) : words (plainArguments arguments) = .ok (plainWords ws) := by
  induction arguments generalizing ws with
  | nil =>
    cases h
    rfl
  | cons argument rest ih =>
    unfold words at h
    split at h
    · next hdashes =>
      cases h
      rw [plainArguments, if_pos hdashes, words, if_pos hdashes]
      rfl
    · next hdashes =>
      obtain ⟨w, hw, hmore⟩ := bind_eq_ok_iff.1 h
      obtain ⟨more, hrest, hpure⟩ := bind_eq_ok_iff.1 hmore
      cases hpure
      have hd : display? argument = w.display? := by
        rw [display?, hw]
        rfl
      rw [plainArguments, if_neg hdashes, hd]
      cases hdisplay : w.display? with
      | some d =>
        rw [plainWords_of_display hdisplay]
        exact ih hrest
      | none =>
        rw [plainWords_of_not_display (ne_dashes_of_classify hw) hdisplay]
        show words (argument :: plainArguments rest) = _
        rw [words, if_neg hdashes, hw, ih hrest]
        rfl

/-! ## Requests -/

/-- The request with a display. -/
def Request.shown (r : Request) (d : Display) : Request :=
  { r with json := r.json || d.json, verbose := r.verbose || d.verbose, debug := r.debug || d.debug }

/-- Settings with a display make the request with it. -/
theorem Settings.finish_shown (s : Settings) (d : Display) :
    (s.shown d).finish = (·.shown d) <$> s.finish := by
  cases hsample : s.sample with
  | none => simp [finish, shown, hsample, Functor.map, Except.map]
  | some sample =>
    by_cases hextras : s.extras = []
    · by_cases hbase : s.base.isSome ∧ !s.raw
      · simp [finish, shown, hsample, hextras, hbase, Functor.map, Except.map]
      · simp only [finish, shown, hsample, hextras, hbase, ne_eq, not_true_eq_false, if_false]
        rfl
    · simp [finish, shown, hsample, hextras, Functor.map, Except.map]

/-- A command line is read when its words are sorted, taken, and make a request. -/
theorem parse_eq_ok_iff {arguments : List String} {r : Request} :
    parse arguments = .ok r ↔ ∃ ws s, words arguments = .ok ws ∧ take {} ws = .ok s ∧
      s.finish = .ok r := by
  simp only [parse, bind_eq_ok_iff, mapError_eq_ok_iff]
  constructor
  · rintro ⟨ws, hws, s, hs, hr⟩
    exact ⟨ws, s, hws, hs, hr⟩
  · rintro ⟨ws, s, hws, hs, hr⟩
    exact ⟨ws, hws, s, hs, hr⟩

/-- **A command line makes the request of its plain arguments, with a display.** -/
theorem parse_plainArguments {arguments : List String} {r : Request}
    (h : parse arguments = .ok r) :
    ∃ plain d, parse (plainArguments arguments) = .ok plain ∧ r = plain.shown d := by
  obtain ⟨ws, s, hws, hs, hr⟩ := parse_eq_ok_iff.1 h
  obtain ⟨u, d, hu, rfl⟩ := take_plainWords hs (Settings.finish_ok hr).1
  rw [Settings.finish_shown] at hr
  obtain ⟨plain, hplain, rfl⟩ := map_eq_ok_iff.1 hr
  exact ⟨plain, d, parse_eq_ok_iff.2 ⟨plainWords ws, u, words_plainArguments hws, hu, hplain⟩, rfl⟩

/-- **Command lines that differ in displays alone** make requests that differ in displays alone. -/
theorem eq_shown_of_plainArguments {arguments others : List String} {r other : Request}
    (hr : parse arguments = .ok r) (hother : parse others = .ok other)
    (h : plainArguments others = plainArguments arguments) :
    ∃ plain d e, r = Request.shown plain d ∧ other = plain.shown e := by
  obtain ⟨plain, d, hplain, rfl⟩ := parse_plainArguments hr
  obtain ⟨plain', e, hplain', rfl⟩ := parse_plainArguments hother
  rw [h, hplain] at hplain'
  cases hplain'
  exact ⟨plain, d, e, rfl, rfl⟩

/-- **A display can be added** in front of any command line. -/
theorem parse_display {argument : String} {arguments : List String} {d : Display} {r : Request}
    (hd : display? argument = some d) (h : parse arguments = .ok r) :
    parse (argument :: arguments) = .ok (r.shown d) ∧
      plainArguments (argument :: arguments) = plainArguments arguments := by
  have hdashes : argument ≠ dashes := by
    rintro rfl
    have hnone : display? dashes = none := by decide
    rw [hnone] at hd
    cases hd
  obtain ⟨w, hclassify, hword⟩ := display?_eq_some_iff.1 hd
  obtain ⟨ws, s, hws, hs, hr⟩ := parse_eq_ok_iff.1 h
  constructor
  · refine parse_eq_ok_iff.2 ⟨w :: ws, s.shown d, ?_, ?_, ?_⟩
    · rw [words, if_neg hdashes, hclassify, hws]
      rfl
    · rw [take_of_display hword, take_shown, hs]
      rfl
    · rw [Settings.finish_shown, hr]
      rfl
  · rw [plainArguments, if_neg hdashes, if_pos (by rw [hd]; rfl)]

/-- The arguments that ask for a display. -/
example : display? "--json" = some { json := true } ∧ display? "-v" = some { verbose := true } ∧
    display? "--debug" = some { debug := true } := by decide +kernel

end SigScan.CommandLine
