import UmapTracker.Result
import UmapTracker.Text

/-! data/http_client.h. The HTTP interface and the client that records its requests. -/
namespace UmapTracker.HttpClient
open Text

structure HttpResponse where
  statusCode : Int
  body : Bytes
  deriving DecidableEq, Repr

class IHttpClient (σ : Type) where
  get : σ → Bytes → Result HttpResponse × σ
  post : σ → Bytes → Bytes → Bytes → Result HttpResponse × σ

structure RequestRecord where
  method : Bytes
  url : Bytes
  contentType : Bytes
  body : Bytes
  deriving DecidableEq, Repr

structure MockHttpClient where
  responseStatus : Int
  responseBody : Bytes
  shouldFail : Bool
  requests : List RequestRecord
  deriving DecidableEq, Repr

namespace MockHttpClient

def new : MockHttpClient := ⟨200,ascii "\x7b\x7d",false,[]⟩

def answer (m : MockHttpClient) (r : RequestRecord) : Result HttpResponse × MockHttpClient :=
  let m := {m with requests := m.requests ++ [r]}
  if m.shouldFail then (.error .networkError,m) else (.ok ⟨m.responseStatus,m.responseBody⟩,m)

def setResponse (m : MockHttpClient) (statusCode : Int) (body : Bytes) : MockHttpClient :=
  {m with responseStatus := statusCode, responseBody := body}

def setShouldFail (m : MockHttpClient) (fail : Bool) : MockHttpClient := {m with shouldFail := fail}

def reset (_ : MockHttpClient) : MockHttpClient := new

instance : IHttpClient MockHttpClient where
  get := fun m url => m.answer ⟨ascii "GET",url,[],[]⟩
  post := fun m url contentType body => m.answer ⟨ascii "POST",url,contentType,body⟩

end MockHttpClient
end UmapTracker.HttpClient
