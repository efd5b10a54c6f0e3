import JieziCloud.PrefixFree

open code_words

namespace jiezi_cloud_core.error

/-- The errors of the application, one variant for each category of failure. -/
inductive AppError where
  | NotFound (message : String)
  | Unauthorized (message : String)
  | Forbidden (message : String)
  | Conflict (message : String)
  | Validation (message : String)
  | Storage (message : String)
  | Database (message : String)
  | Serialization (message : String)
  | Internal (message : String)
  deriving DecidableEq

abbrev AppResult (T : Type) : Type := Except AppError T

namespace AppError

/-- `Display` -/
def to_string : AppError → String
  | .NotFound message => "not found: " ++ message
  | .Unauthorized message => "unauthorized: " ++ message
  | .Forbidden message => "forbidden: " ++ message
  | .Conflict message => "conflict: " ++ message
  | .Validation message => "validation error: " ++ message
  | .Storage message => "storage error: " ++ message
  | .Database message => "database error: " ++ message
  | .Serialization message => "serialization error: " ++ message
  | .Internal message => "internal error: " ++ message

/-- The categories, apart from any message. -/
inductive Category where
  | NotFound
  | Unauthorized
  | Forbidden
  | Conflict
  | Validation
  | Storage
  | Database
  | Serialization
  | Internal
  deriving DecidableEq

def Category.label : Category → String
  | .NotFound => "not found: "
  | .Unauthorized => "unauthorized: "
  | .Forbidden => "forbidden: "
  | .Conflict => "conflict: "
  | .Validation => "validation error: "
  | .Storage => "storage error: "
  | .Database => "database error: "
  | .Serialization => "serialization error: "
  | .Internal => "internal error: "

def category : AppError → Category
  | .NotFound _ => .NotFound
  | .Unauthorized _ => .Unauthorized
  | .Forbidden _ => .Forbidden
  | .Conflict _ => .Conflict
  | .Validation _ => .Validation
  | .Storage _ => .Storage
  | .Database _ => .Database
  | .Serialization _ => .Serialization
  | .Internal _ => .Internal

def message : AppError → String
  | .NotFound message | .Unauthorized message | .Forbidden message | .Conflict message
  | .Validation message | .Storage message | .Database message | .Serialization message
  | .Internal message => message

/-- What is displayed is the label of the category followed by the message, in
    every category alike. -/
theorem to_string_eq (self : AppError) : self.to_string = self.category.label ++ self.message := by
  cases self <;> rfl

theorem ext {self other : AppError} (hcategory : self.category = other.category)
    (hmessage : self.message = other.message) : self = other := by
  cases self <;> cases other <;> cases hcategory <;> simpa [message] using hmessage

/-- No label is the beginning of another one, so that a displayed error can be cut
    in one place only. -/
theorem Category.label_prefixFree : PrefixFree fun category : Category => category.label.toList := by
  apply prefixFree_of_starts
  intro a b
  cases a <;> cases b <;> decide

/-- The category and the message can be told from what is displayed. -/
theorem to_string_injective {self other : AppError} (h : self.to_string = other.to_string) :
    self = other := by
  rw [to_string_eq, to_string_eq, ← String.toList_inj, String.toList_append, String.toList_append] at h
  obtain ⟨hcategory, hmessage⟩ := Category.label_prefixFree _ _ h
  exact ext hcategory (String.toList_inj.mp hmessage)

end AppError

end jiezi_cloud_core.error
