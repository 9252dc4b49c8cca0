import RamlScaffold.Server.Basic

/-!
The files around the modules of a server.
-/

namespace RamlScaffold.Server

open Source

/-- The packages that a server needs; for development also the test tools. -/
def requirements (c : Context) (dev : Bool) : Source :=
  .join [
    ["Flask>=2.3.0",
     "Flask-SQLAlchemy>=3.0.0",
     "marshmallow>=3.19.0",
     "flask-marshmallow>=0.15.0",
     "marshmallow-sqlalchemy>=0.29.0"],
    when c.settings.includeAuth ["Flask-JWT-Extended>=4.5.0"],
    when c.settings.includeCors ["Flask-CORS>=4.0.0"],
    ["Werkzeug>=2.3.0"],
    when dev
      ["pytest>=7.0.0",
       "pytest-flask>=1.2.0",
       "pytest-cov>=4.0.0"]]

def environment : Source :=
  ["# Environment variables for local development",
   "DATABASE_URL=sqlite:///app.db",
   "SECRET_KEY=your-secret-key-here",
   "JWT_SECRET_KEY=jwt-secret-key-here",
   "FLASK_ENV=development",
   "FLASK_DEBUG=True"]

def ignored : Source :=
  .join [
    ["# Byte-compiled / optimized / DLL files",
     "__pycache__/",
     "*.py[cod]",
     "*$py.class",
     "",
     "# Distribution / packaging",
     ".Python",
     "build/",
     "develop-eggs/",
     "dist/",
     "downloads/",
     "eggs/",
     ".eggs/",
     "lib/",
     "lib64/",
     "parts/",
     "sdist/",
     "var/",
     "wheels/",
     "*.egg-info/",
     ".installed.cfg",
     "*.egg",
     "",
     "# PyInstaller",
     "*.manifest",
     "*.spec"],
    ["",
     "# Unit test / coverage reports",
     "htmlcov/",
     ".tox/",
     ".coverage",
     ".coverage.*",
     ".cache",
     "nosetests.xml",
     "coverage.xml",
     "*.cover",
     ".hypothesis/",
     ".pytest_cache/",
     "",
     "# Flask",
     "instance/",
     ".webassets-cache",
     "",
     "# Environment variables",
     ".env",
     ".venv",
     "env/",
     "venv/",
     "ENV/",
     "env.bak/",
     "venv.bak/"],
    ["",
     "# IDE",
     ".vscode/",
     ".idea/",
     "*.swp",
     "*.swo",
     "*~",
     "",
     "# Database",
     "*.db",
     "*.sqlite",
     "*.sqlite3",
     "",
     "# Logs",
     "*.log",
     "",
     "# OS",
     ".DS_Store",
     "Thumbs.db"]]

def readme (c : Context) : Source :=
  .join [
    [["# ", c.appTitle],
     "",
     [c.spec.title, " (version ", c.spec.version, "), served under `/api/", c.settings.apiVersion,
      "`."]],
    when (c.spec.description != "")
      ["",
       [c.spec.description]],
    ["",
     "## Setup",
     "",
     "```bash",
     "python -m venv venv",
     "source venv/bin/activate",
     "pip install -r requirements-dev.txt",
     "cp .env.example .env",
     "python run.py",
     "```",
     "",
     "## Resources",
     ""],
    each c.groups fun g =>
      .join [
        [["### ", g.name.pascal],
         ""],
        each g.endpoints fun e =>
          each e.operations fun op =>
            [["- `", op.verb.upper, " /api/", c.settings.apiVersion, e.routePath, "` (", op.name,
              ")"]],
        [""]],
    [["- `GET /api/", c.settings.apiVersion, "/health`"]],
    when c.settings.includeAuth
      ["",
       "## Authentication",
       "",
       "Secured endpoints expect `Authorization: Bearer <token>` signed with `JWT_SECRET_KEY`."],
    when c.settings.generateTests
      ["",
       "## Tests",
       "",
       "```bash",
       "pytest",
       "```"]]

end RamlScaffold.Server
