import Nyc.Client.Lifecycle

/-! `client/pubip`, `client/proxy` and `client/guest`. -/

namespace Nyc.Client

open Effects.Program (perform)

namespace PubipPool

/-- `acquire`: address, gateway, mac and prefix of the first unused entry. -/
def acquire (cfg : Config.PubipConfig) (used : List Str) : Except Exn (Str × Str × Str × Str) :=
  match cfg.ips.find? fun e => !used.contains e.address with
  | some e => .ok (e.address, orElse cfg.gateway [], e.mac, e.prefix_)
  | none => .error (.runtime "no free public IPs in pool for this node")

end PubipPool

namespace Caddyfile

/-- fqdn, VM address and port. -/
abbrev Route : Type := Str × Str × Int

def block (r : Route) : Str :=
  r.1 ++ " \x7b\n\treverse_proxy " ++ r.2.1 ++ ":" ++ (toString r.2.2).toList ++ "\n\x7d"

def render (routes : List Route) : Str :=
  if routes = [] then [] else List.intercalate "\n\n" (routes.map block) ++ "\n"

end Caddyfile

namespace GuestRun

def run (ip key : Str) (script : GuestScript) : Sh Str :=
  @perform Cmd Cmd.Res Exn (.ssh ip key script)

end GuestRun

namespace Push

def setup (ip key : Str) : Sh Str := GuestRun.run ip key .setup

/-- The text of `GuestScript.reload`, which the guest's `bash -s` reads. -/
def reloadScript (caddyfileText : Str) : Str :=
  "mkdir -p /etc/caddy\n" ++ "cat > /etc/caddy/Caddyfile << 'NYCEOF'\n" ++
    caddyfileText ++ "NYCEOF\n" ++
    "caddy reload --config /etc/caddy/Caddyfile\n"

def reload (ip key caddyfileText : Str) : Sh Str := GuestRun.run ip key (.reload caddyfileText)

end Push

end Nyc.Client
