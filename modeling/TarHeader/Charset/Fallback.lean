import TarHeader.Charset

/- Trying again with the fallback charset. Work that fails for the charset asked for is done from
   the start with the fallback, so its result never mixes the two; a fault of another kind
   stands. -/
namespace TarHeader

/-- A fault of the second attempt. The fallback takes all text, so one that blames it is a
    defect. -/
def Fault.escalate (fault : Fault) : Fault :=
  if fault.isEncoding then
    .internal ("fallback encoding failed: ".toList ++ fault.message.toList)
  else fault

def Charset.orFallback {α : Type} (cs : Charset) (work : Charset → Except Fault α) :
    Except Fault α :=
  match work cs with
  | .ok a => .ok a
  | .error fault =>
    if fault.isEncoding then (work .fallback).mapError Fault.escalate else .error fault

end TarHeader
