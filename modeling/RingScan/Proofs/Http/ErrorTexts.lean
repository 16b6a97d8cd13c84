import RingScan.Http.RestError
import RingScan.Proofs.Text.Templates

set_option autoImplicit false

/-! # What errors say

An error is made with a template and the values for it. Without a template it says the default,
without values it says the template, and otherwise it says the template filled in with the values.
Where the values do not suit the template, they stand behind it (`RestError.made_unless_exceeding`).
What cannot be made is what exceeds (`RestError.make_eq_error_iff`), so an error that shows a single
value can always be made (`RestError.make_showing`), and the errors of rejections are such errors
(`RestError.make_ofCode`). -/

namespace RingScan.Http.RestError

open Text.Template (Exceeds Fills fill fill_of_fills fill_of_exceeds fill_cases)

variable {kind : RestErrorKind} {message filled : String}
variable {values : List Value} {cause? : Option RestErrorCause} {e : Text.Template.Failure}

/-! ## Ways to be made -/

theorem displayText_str (s : String) : (Value.str s).displayText = s := String.ofList_toList

theorem make_empty : make kind (.str "") values cause? = .ok ⟨kind, defaultMessage, cause?⟩ := rfl

theorem make_nil (hmessage : message ≠ "") :
    make kind (.str message) [] cause? = .ok ⟨kind, message, cause?⟩ := by
  have htruthy : (Value.str message).isTruthy = true := by simpa [Value.isTruthy] using hmessage
  simp [make, composeMessage, htruthy, Except.map, displayText_str]

theorem make_eq (hmessage : message ≠ "") (hvalues : values ≠ []) :
    make kind (.str message) values cause? =
      match fill message values with
      | .ok filled => .ok ⟨kind, filled, cause?⟩
      | .error .unfit =>
          .ok ⟨kind, message ++ " " ++ " ".intercalate (values.map Value.displayText), cause?⟩
      | .error e => .error e := by
  have htruthy : (Value.str message).isTruthy = true := by simpa [Value.isTruthy] using hmessage
  have hfull : values.isEmpty = false := by simpa using hvalues
  rw [make, composeMessage, htruthy, hfull]
  rcases hfill : fill message values with e | filled
  · cases e <;> simp [fillIn, hfill, Except.map, sideBySide, displayText_str]
  · simp [fillIn, hfill, Except.map, displayText_str]

theorem make_of_fills (hmessage : message ≠ "") (hvalues : values ≠ [])
    (h : Fills message.toList values filled.toList) :
    make kind (.str message) values cause? = .ok ⟨kind, filled, cause?⟩ := by
  rw [make_eq hmessage hvalues, fill_of_fills h]

theorem make_of_unfit (hmessage : message ≠ "") (hvalues : values ≠ [])
    (h : fill message values = .error .unfit) :
    make kind (.str message) values cause? =
      .ok ⟨kind, message ++ " " ++ " ".intercalate (values.map Value.displayText), cause?⟩ := by
  rw [make_eq hmessage hvalues, h]

theorem make_of_exceeds (h : Exceeds e message.toList values) :
    make kind (.str message) values cause? = .error e := by
  have hmessage : message ≠ "" := by
    rintro rfl
    exact h.template_ne_nil rfl
  have hne := h.ne_unfit
  rw [make_eq hmessage h.values_ne_nil, fill_of_exceeds h]
  cases e with
  | unfit => exact absurd rfl hne
  | _ => rfl

/-! ## What is said -/

/-- **An error is made unless its template exceeds**, of whatever kind it is and whatever brought it
    about. It says the default if there is no template, the template if there are no values, the
    template filled in if the values suit it, and the template and the values otherwise. -/
theorem made_unless_exceeding (kind : RestErrorKind) (message : String) (values : List Value)
    (cause? : Option RestErrorCause) (h : ∀ e, ¬ Exceeds e message.toList values) :
    ∃ text, make kind (.str message) values cause? = .ok ⟨kind, text, cause?⟩ ∧
      (message = "" → text = defaultMessage) ∧
      (message ≠ "" → values = [] → text = message) ∧
      (message ≠ "" → values ≠ [] →
        (∀ filled : String, Fills message.toList values filled.toList → text = filled) ∧
        ((∀ filled : String, ¬ Fills message.toList values filled.toList) →
          text = message ++ " " ++ " ".intercalate (values.map Value.displayText))) := by
  by_cases hmessage : message = ""
  · subst hmessage
    exact ⟨defaultMessage, make_empty, fun _ => rfl, fun h => absurd rfl h, fun h => absurd rfl h⟩
  by_cases hvalues : values = []
  · subst hvalues
    exact ⟨message, make_nil hmessage, fun h => absurd h hmessage, fun _ _ => rfl,
      fun _ h => absurd rfl h⟩
  rcases fill_cases message values with ⟨filled, hfills⟩ | ⟨e, hexceeds⟩ | hunfit
  · refine ⟨filled, make_of_fills hmessage hvalues hfills, fun h => absurd h hmessage,
      fun _ h => absurd h hvalues, fun _ _ => ⟨fun other hother => ?_, fun hnone => ?_⟩⟩
    · exact Except.ok.inj ((fill_of_fills hfills).symm.trans (fill_of_fills hother))
    · exact absurd hfills (hnone filled)
  · exact absurd hexceeds (h e)
  · refine ⟨_, make_of_unfit hmessage hvalues hunfit, fun h => absurd h hmessage,
      fun _ h => absurd h hvalues, fun _ _ => ⟨fun filled hfills => ?_, fun _ => rfl⟩⟩
    cases (fill_of_fills hfills).symm.trans hunfit

/-- An error that names a missing table is made where all values suit, an infinity and a truth value
    among them, and where a stray percent sign takes a text for a number. -/
theorem made_unless_exceeding_noSuchResource :
    let kind := RestErrorKind.noSuchResource (.str "table") (.str "users")
    make kind (.str "%-6s|%6.1f|%+03d%%") [.null, .float (.infinite true), .bool true] none =
        .ok ⟨kind, "None  |  -inf|+01%", none⟩ ∧
      make kind (.str "50% of %s") [.str "ks"] none = .ok ⟨kind, "50% of %s ks", none⟩ := by
  intro kind
  constructor
  · have hfill : fill "%-6s|%6.1f|%+03d%%" [.null, .float (.infinite true), .bool true] =
        .ok "None  |  -inf|+01%" := rfl
    obtain ⟨text, hmake, -, -, htext⟩ := made_unless_exceeding kind _ _ none fun e h => by
      cases (fill_of_exceeds h).symm.trans hfill
    rw [hmake, (htext (by decide) (by simp)).1 _ (Text.Template.fill_eq_ok_iff.1 hfill)]
  · have hunfit : fill "50% of %s" [.str "ks"] = .error .unfit := rfl
    have hnot := Text.Template.fill_eq_unfit_iff.1 hunfit
    obtain ⟨text, hmake, -, -, htext⟩ := made_unless_exceeding kind _ _ none hnot.2
    rw [hmake, (htext (by decide) (by simp)).2 hnot.1]
    rfl

/-- Without a template there is more to read than nothing, and there is no error with a number shown
    as a character that is no code point. -/
theorem make_empty_and_codePoint :
    (make .general (.str "") [] = .ok ⟨.general, defaultMessage, none⟩ ∧ defaultMessage ≠ "") ∧
      make .general (.str "%c") [.int (-1)] = .error .overflow :=
  ⟨⟨rfl, by decide⟩, rfl⟩

/-- **What cannot be made exceeds.** -/
theorem make_eq_error_iff :
    make kind (.str message) values cause? = .error e ↔ Exceeds e message.toList values := by
  refine ⟨fun h => ?_, make_of_exceeds⟩
  by_cases hmessage : message = ""
  · subst hmessage
    cases make_empty.symm.trans h
  by_cases hvalues : values = []
  · subst hvalues
    cases (make_nil hmessage).symm.trans h
  rcases fill_cases message values with ⟨filled, hfills⟩ | ⟨e', hexceeds⟩ | hunfit
  · cases (make_of_fills hmessage hvalues hfills).symm.trans h
  · obtain rfl := Except.error.inj ((make_of_exceeds hexceeds).symm.trans h)
    exact hexceeds
  · cases (make_of_unfit hmessage hvalues hunfit).symm.trans h

/-! ## Errors that show a value -/

/-- An error that shows a single value among plain texts can always be made. -/
theorem make_showing (kind : RestErrorKind) (cause? : Option RestErrorCause)
    (before after : String) (v : Value) (hbefore : '%' ∉ before.toList)
    (hafter : '%' ∉ after.toList) :
    make kind (.str (before ++ "%s" ++ after)) [v] cause? =
      .ok ⟨kind, before ++ v.displayText ++ after, cause?⟩ := by
  have hmessage : before ++ "%s" ++ after ≠ "" := fun h => by
    simpa using congrArg String.toList h
  have hend : Fills after.toList [] after.toList := by simpa using Fills.nil.plain_append hafter
  refine make_of_fills hmessage (List.cons_ne_nil _ _) ?_
  simpa [Value.displayText] using hend.show_append.plain_append hbefore

/-- The value that the error of a rejection shows. -/
def shown (e : Wire.ErrorBody) (requestId : Value) : Value :=
  if requestId = .str unknownRequest then e.message
  else .str (e.message.displayText ++ " requestId:" ++ requestId.displayText)

/-- **The error of a rejection can always be made**, whatever the node says. -/
theorem make_ofCode (e : Wire.ErrorBody) (requestId : Value) :
    make (ofCode e).1 (.str ((ofCode e).2 ++ "%s")) [shown e requestId] =
      .ok (ofBody e requestId) := by
  have hplain : '%' ∉ (ofCode e).2.toList := by
    unfold ofCode
    dsimp only
    split_ifs <;> (dsimp only; decide)
  have hmade : make (ofCode e).1 (.str ((ofCode e).2 ++ "%s")) [shown e requestId] =
      .ok ⟨(ofCode e).1, (ofCode e).2 ++ (shown e requestId).displayText, none⟩ := by
    have hshown := make_showing (ofCode e).1 none (ofCode e).2 "" (shown e requestId) hplain
      (by decide)
    rwa [String.append_empty, String.append_empty] at hshown
  rw [hmade, ofBody, shown]
  split_ifs <;> simp [displayText_str, String.append_assoc]

end RingScan.Http.RestError
