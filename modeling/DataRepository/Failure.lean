import DataRepository.Http.Message
import DataRepository.Problem

/-!
# Failures

Why a request is not served, and the response that says so.
-/
namespace DataRepository

/-- Why a request is not served. -/
inductive Failure where
  | badRequest (detail : String)
  | unauthorized (detail : String)
  | notFound (detail : String)
  | internal (detail : String)
deriving DecidableEq

namespace Failure

def detail : Failure → String
  | badRequest d | unauthorized d | notFound d | internal d => d

def text : Failure → String
  | badRequest d => "bad request: " ++ d
  | unauthorized d => "unauthorized: " ++ d
  | notFound d => "data not found: " ++ d
  | internal d => "internal error: " ++ d

def status : Failure → UInt16
  | badRequest _ => 400
  | unauthorized _ => 401
  | notFound _ => 404
  | internal _ => 500

def cause : Failure → String
  | badRequest _ => "MANDATORY_IE_INCORRECT"
  | unauthorized _ => "UNAUTHORIZED"
  | notFound _ => "DATA_NOT_FOUND"
  | internal _ => "SYSTEM_FAILURE"

def title : Failure → String
  | badRequest _ => "Bad Request"
  | unauthorized _ => "Unauthorized"
  | notFound _ => "Not Found"
  | internal _ => "Internal Server Error"

def problem (f : Failure) : Problem where
  title := some f.title
  status := f.status
  detail := some f.detail
  cause := some f.cause

def problemType : String := "application/problem+json"

def response (f : Failure) : Http.Response where
  status := f.status
  contentType := some problemType
  body := f.problem.text

@[simp]
theorem status_response (f : Failure) : f.response.status = f.status := rfl

theorem status_problem (f : Failure) : f.problem.status = f.response.status := rfl

end Failure

end DataRepository
